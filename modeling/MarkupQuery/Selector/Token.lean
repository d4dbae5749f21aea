import MarkupQuery.Selector.Delimited
import MarkupQuery.Selector.Error

/-!
# Tokens of selector text

Selector text is first cut into tokens.  A token ends where its own characters
say, so that what follows it does not change it; brackets and the arguments of
pseudo-classes are taken whole, to be read later.

* `Token.scan` — the tokens of a text; where the text is no token, a `fault` tells
  why, and is the last of them.

A blank that is no ASCII character is at once a blank and a letter of names.  It
is a letter where a compound is being read, and a blank elsewhere.
-/

namespace MarkupQuery

open Delimited

/-- Whether a character can be part of a name: ASCII letters and digits, `_`, `-`,
and everything beyond ASCII. -/
def isNameChar (c : Char) : Bool :=
  c.isAlphanum || c == '_' || c == '-' || 0x80 ≤ c.toNat

/-- Whether a character can be part of a type name, which can have a namespace. -/
def isTypeChar (c : Char) : Bool := isNameChar c || c == '|'

/-- What a token is. -/
inductive Lexeme where
  /-- A run of blanks. -/
  | blank
  | comma
  | combinator (c : Char) (k : Combinator)
  | star
  | type (letters : List Char)
  | id (letters : List Char)
  | ofClass (letters : List Char)
  /-- What stands between square brackets. -/
  | attribute (content : List Char)
  /-- A pseudo-class; an argument comes with the position of its parenthesis. -/
  | pseudo (name : PseudoName) (argument : Option (Nat × List Char))
  /-- A character that starts no token. -/
  | stray (c : Char)
  /-- The start of a token that is not completed. -/
  | fault (e : SelectorError)
  deriving DecidableEq, Repr

/-- Whether a token is a simple selector, or meant to be one. -/
def Lexeme.isSimple : Lexeme → Bool
  | .star | .type _ | .id _ | .ofClass _ | .attribute _ | .pseudo _ _ | .fault _ => true
  | _ => false

/-- A token and where it starts. -/
structure Token where
  position : Nat
  lexeme : Lexeme
  deriving DecidableEq, Repr

namespace Token

/-- The error for a slice of brackets, opened at `opening`, that never ends. -/
def unclosed (b : Bracket) (opening : Nat) : Unclosed → SelectorError
  | .bracket => .malformed opening (.unbalanced b.opening b.closing)
  | .quote position => .malformed position .unterminatedQuote

/-- The name after the sigil at `position`. -/
def named (position : Nat) (sigil : Char) (make : List Char → Lexeme) (rest : List Char) :
    Lexeme × List Char :=
  let letters := rest.takeWhile isNameChar
  if letters = [] then (.fault (.malformed (position + 1) (.expectedNameAfter sigil)), [])
  else (make letters, rest.dropWhile isNameChar)

/-- The content of the square bracket at `position`. -/
def bracketed (position : Nat) (rest : List Char) : Lexeme × List Char :=
  match Bracket.square.slice true (position + 1) rest with
  | .ok (content, rest) => (.attribute content, rest)
  | .error e => (.fault (unclosed .square position e), [])

/-- The pseudo-class whose argument starts after the parenthesis at `opening`. -/
def argument (name : PseudoName) (opening : Nat) (rest : List Char) :
    Lexeme × List Char :=
  match Bracket.round.slice (name == .has || name == .not) (opening + 1) rest with
  | .ok (content, rest) => (.pseudo name (some (opening, content)), rest)
  | .error e => (.fault (unclosed .round opening e), [])

/-- The pseudo-class whose colon is at `position`. -/
def pseudoClass (position : Nat) (rest : List Char) : Lexeme × List Char :=
  let written := rest.takeWhile isNameChar
  if written = [] then (.fault (.malformed position .expectedPseudoName), [])
  else
    match PseudoName.ofText? (String.ofList written) with
    | none => (.fault (.malformed position (.unknownPseudo (String.ofList written))), [])
    | some name =>
      match rest.dropWhile isNameChar with
      | '(' :: rest => argument name (position + 1 + written.length) rest
      | rest => (.pseudo name none, rest)

/-- The token that starts with the character `c` at `position`, and the text after
it.  `inCompound` tells that a simple selector stands just before. -/
def take (inCompound : Bool) (position : Nat) (c : Char) (rest : List Char) :
    Lexeme × List Char :=
  if Text.isBlank c && !(inCompound && isTypeChar c) then (.blank, rest.dropWhile Text.isBlank)
  else if c = ',' then (.comma, rest)
  else if c = '*' then (.star, rest)
  else if c = '#' then named position c .id rest
  else if c = '.' then named position c .ofClass rest
  else if c = '[' then bracketed position rest
  else if c = ':' then pseudoClass position rest
  else if isTypeChar c then
    (.type (c :: rest.takeWhile isTypeChar), rest.dropWhile isTypeChar)
  else
    match Combinator.ofChar? c with
    | some k => (.combinator c k, rest)
    | none => (.stray c, rest)

end Token

/-! ### Tokens take text away -/

namespace Token

theorem length_named_le (position : Nat) (sigil : Char) (make : List Char → Lexeme)
    (rest : List Char) : (named position sigil make rest).2.length ≤ rest.length := by
  unfold named
  dsimp only
  split
  · simp
  · exact (List.dropWhile_suffix _).length_le

theorem length_bracketed_le (position : Nat) (rest : List Char) :
    (bracketed position rest).2.length ≤ rest.length := by
  unfold bracketed
  split
  · next h => have := Bracket.length_of_slice h; dsimp only at this ⊢; omega
  · simp

theorem length_argument_le (name : PseudoName) (opening : Nat) (rest : List Char) :
    (argument name opening rest).2.length ≤ rest.length := by
  unfold argument
  split
  · next h => have := Bracket.length_of_slice h; dsimp only at this ⊢; omega
  · simp

theorem length_pseudoClass_le (position : Nat) (rest : List Char) :
    (pseudoClass position rest).2.length ≤ rest.length := by
  have hdrop : (rest.dropWhile isNameChar).length ≤ rest.length :=
    (List.dropWhile_suffix isNameChar).length_le
  unfold pseudoClass
  dsimp only
  split
  · simp
  · split
    · simp
    · split
      · next after h =>
        have := length_argument_le ‹PseudoName›
          (position + 1 + (rest.takeWhile isNameChar).length) after
        rw [h, List.length_cons] at hdrop
        omega
      · exact hdrop

/-- A token leaves no more than what follows its first character. -/
theorem length_take_le (inCompound : Bool) (position : Nat) (c : Char) (rest : List Char) :
    (take inCompound position c rest).2.length ≤ rest.length := by
  unfold take
  split
  · exact (List.dropWhile_suffix _).length_le
  split
  · exact Nat.le_refl _
  split
  · exact Nat.le_refl _
  split
  · exact length_named_le _ _ _ _
  split
  · exact length_named_le _ _ _ _
  split
  · exact length_bracketed_le _ _
  split
  · exact length_pseudoClass_le _ _
  split
  · exact (List.dropWhile_suffix _).length_le
  split <;> exact Nat.le_refl _

/-- The tokens of a text that starts at `position`. -/
def scan (inCompound : Bool) (position : Nat) : List Char → List Token
  | [] => []
  | c :: rest =>
    let taken := take inCompound position c rest
    ⟨position, taken.1⟩ ::
      scan taken.1.isSimple (position + (rest.length + 1 - taken.2.length)) taken.2
termination_by cs => cs.length
decreasing_by
  have := length_take_le inCompound position c rest
  simp only [List.length_cons]
  omega

end Token

end MarkupQuery
