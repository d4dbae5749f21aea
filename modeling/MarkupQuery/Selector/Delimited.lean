/-!
# Brackets, quotes and escapes

Pieces of selector text that run to a delimiter, and the escapes that keep a
delimiter from ending them.

* `Bracket.slice` — the text up to the bracket that closes an open one;
* `readQuoted`, `writeQuoted` — values between quotes;
* `unescape`, `escapeArgument` — text in parentheses.
-/

namespace MarkupQuery.Delimited

/-- The two kinds of bracket. -/
inductive Bracket where
  | round
  | square
  deriving DecidableEq, Repr

/-- The opening bracket. -/
def Bracket.opening : Bracket → Char
  | round => '('
  | square => '['

/-- The closing bracket. -/
def Bracket.closing : Bracket → Char
  | round => ')'
  | square => ']'

/-- Why no slice was found. -/
inductive Unclosed where
  /-- The bracket is never closed. -/
  | bracket
  /-- The quote at this position is never closed. -/
  | quote (position : Nat)
  deriving DecidableEq, Repr

/-- Whether a character delimits quoted text. -/
def isQuote (c : Char) : Bool := c == '"' || c == '\''

/-- The number of square brackets open after a character; a closing one too many
does not count. -/
def squaresAfter (squares : Nat) (c : Char) : Nat :=
  if c = '[' then squares + 1 else if c = ']' then squares - 1 else squares

/-- Puts characters back in front of a slice. -/
def keep (cs : List Char) (slice : List Char × List Char) : List Char × List Char :=
  (cs ++ slice.1, slice.2)

/-- Looks for the closing bracket.  `depth` brackets of the kind are open besides
the one to be closed, and `squares` square brackets.  A backslash hides the
character after it.  With `quotes` text is quoted where a square bracket is open;
`quoted` is the quote that the text is in, and the position of that quote.
`position` is that of the next character. -/
def sliceFrom (b : Bracket) (quotes : Bool) (depth squares : Nat)
    (quoted : Option (Char × Nat)) (position : Nat) :
    List Char → Except Unclosed (List Char × List Char)
  | [] =>
    match quoted with
    | none => .error .bracket
    | some (_, start) => .error (.quote start)
  | '\\' :: c :: rest =>
    (sliceFrom b quotes depth squares quoted (position + 2) rest).map (keep ['\\', c])
  | c :: rest =>
    match quoted with
    | some (quote, start) =>
      let quoted := if c = quote then none else some (quote, start)
      (sliceFrom b quotes depth squares quoted (position + 1) rest).map (keep [c])
    | none =>
      let squares := squaresAfter squares c
      if isQuote c && quotes && squares ≠ 0 then
        (sliceFrom b quotes depth squares (some (c, position)) (position + 1) rest).map (keep [c])
      else if c = b.closing then
        match depth with
        | 0 => .ok ([], rest)
        | depth + 1 =>
          (sliceFrom b quotes depth squares none (position + 1) rest).map (keep [c])
      else
        let depth := if c = b.opening then depth + 1 else depth
        (sliceFrom b quotes depth squares none (position + 1) rest).map (keep [c])

/-- The text between an opening bracket and the one that closes it, unchanged, and
the text after.  The text starts at `position`, just after the opening bracket. -/
def Bracket.slice (b : Bracket) (quotes : Bool) (position : Nat) (cs : List Char) :
    Except Unclosed (List Char × List Char) :=
  sliceFrom b quotes 0 (if b = .square then 1 else 0) none position cs

/-- Reads a value after its opening quote; gives it with the text after the
closing quote.  A backslash escapes the quote and itself, and else stands for
itself. -/
def readQuoted (quote : Char) : List Char → Option (List Char × List Char)
  | [] => none
  | '\\' :: c :: rest =>
    (readQuoted quote rest).map (keep (if c = quote ∨ c = '\\' then [c] else ['\\', c]))
  | c :: rest => if c = quote then some ([], rest) else (readQuoted quote rest).map (keep [c])

/-- A value with its double quotes and backslashes escaped. -/
def escapeQuoted : List Char → List Char
  | [] => []
  | c :: rest =>
    if c = '"' ∨ c = '\\' then '\\' :: c :: escapeQuoted rest else c :: escapeQuoted rest

/-- A value between double quotes. -/
def writeQuoted (value : List Char) : List Char := '"' :: escapeQuoted value ++ ['"']

/-- Drops each backslash that escapes a character, or ends the text. -/
def unescape : List Char → List Char
  | [] => []
  | '\\' :: c :: rest => c :: unescape rest
  | c :: rest => if c = '\\' then unescape rest else c :: unescape rest

/-- Whether a character is escaped in text between parentheses. -/
def isDelimiter (c : Char) : Bool :=
  c == '(' || c == ')' || c == '[' || c == ']' || c == '\'' || c == '"' || c == '\\'

/-- A text with every bracket, quote and backslash escaped. -/
def escapeArgument : List Char → List Char
  | [] => []
  | c :: rest =>
    if isDelimiter c then '\\' :: c :: escapeArgument rest else c :: escapeArgument rest

/-! ### Slices are parts of the text -/

theorem map_keep_eq_ok {e : Except Unclosed (List Char × List Char)} {cs : List Char}
    {slice : List Char × List Char} :
    e.map (keep cs) = .ok slice ↔ ∃ inner, e = .ok inner ∧ keep cs inner = slice := by
  cases e <;> simp [Except.map]

/-- A slice and the text after it leave out just the closing bracket. -/
theorem length_of_sliceFrom {b : Bracket} {quotes : Bool} {depth squares : Nat}
    {quoted : Option (Char × Nat)} {position : Nat} {cs : List Char}
    {slice : List Char × List Char}
    (h : sliceFrom b quotes depth squares quoted position cs = .ok slice) :
    slice.1.length + slice.2.length + 1 = cs.length := by
  fun_induction sliceFrom b quotes depth squares quoted position cs generalizing slice with
  | case1 => simp at h
  | case2 => simp at h
  | case6 => cases h; simp
  | _ =>
    obtain ⟨inner, hinner, rfl⟩ := map_keep_eq_ok.1 h
    rename_i ih
    have := ih hinner
    simp only [keep, List.length_append, List.length_cons, List.length_nil]
    omega

theorem Bracket.length_of_slice {b : Bracket} {quotes : Bool} {position : Nat}
    {cs : List Char} {slice : List Char × List Char}
    (h : b.slice quotes position cs = .ok slice) :
    slice.1.length + slice.2.length + 1 = cs.length :=
  length_of_sliceFrom h

end MarkupQuery.Delimited
