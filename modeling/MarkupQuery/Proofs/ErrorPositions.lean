import MarkupQuery.Proofs.Shifting
import MarkupQuery.Proofs.Slices
import MarkupQuery.Proofs.Writing

/-!
# Where errors are reported

The positions in errors count from the start of the outermost text and never lead out of
it.  Every step of the reading reports places inside the text of its token, and an
argument is cut out of the text unchanged, so that its own errors are those of the whole
text, moved by where it starts.

* `Outcome.Within` — the places that are reported lie in a piece of text;
* `Token.faultWithin_take`, `Progress.take_within` — what a token and a step can report;
* `Parser.parseAt_within` — whole texts;
* `Parser.ComesTo` — the arguments that a reading comes to, at any depth;
* `Parser.parse_error_positions` — positions are absolute, and inside the text.
-/

namespace MarkupQuery

open Delimited

/-- The place that an error reports, if it does, lies between two positions. -/
def SelectorError.Within (first last : Nat) (e : SelectorError) : Prop :=
  ∀ position ∈ e.position?, first ≤ position ∧ position ≤ last

namespace SelectorError

variable {first last first' last' : Nat} {e : SelectorError}

theorem within_malformed {position : Nat} (reason : Reason) (hfirst : first ≤ position)
    (hlast : position ≤ last) : (malformed position reason).Within first last := by
  intro position' hposition
  obtain rfl : position = position' := Option.some.inj hposition
  exact ⟨hfirst, hlast⟩

/-- A refused pattern has no place. -/
theorem within_invalidPattern (source explanation : String) :
    (invalidPattern source explanation).Within first last := by
  intro position hposition
  cases hposition

theorem Within.mono (h : e.Within first last) (hfirst : first' ≤ first) (hlast : last ≤ last') :
    e.Within first' last' := by
  intro position hposition
  obtain ⟨hle, hle'⟩ := h position hposition
  exact ⟨Nat.le_trans hfirst hle, Nat.le_trans hle' hlast⟩

end SelectorError

open SelectorError

/-- What an outcome reports, if it does, lies between two positions. -/
def Outcome.Within {α : Type} (first last : Nat) (o : Outcome α) : Prop :=
  ∀ e, o = .error e → e.Within first last

namespace Outcome

variable {α β : Type} {first last first' last' : Nat} {o : Outcome α}

theorem within_ok (a : α) : Within first last (.ok a) := by
  intro e he
  cases he

theorem within_error {e : SelectorError} (h : e.Within first last) :
    Within first last (.error e : Outcome α) := by
  intro e' he
  cases he
  exact h

theorem Within.mono (h : Within first last o) (hfirst : first' ≤ first) (hlast : last ≤ last') :
    Within first' last' o :=
  fun e he => (h e he).mono hfirst hlast

theorem Within.map (h : Within first last o) (f : α → β) : Within first last (o.map f) := by
  cases o with
  | ok a => exact within_ok (f a)
  | error e => exact within_error (h e rfl)

theorem Within.bind (h : Within first last o) {f : α → Outcome β}
    (hf : ∀ a, o = .ok a → Within first last (f a)) : Within first last (o >>= f) := by
  cases o with
  | ok a => exact hf a rfl
  | error e => exact within_error (h e rfl)

end Outcome

open Outcome

/-! ### Tokens -/

namespace Token

/-- A token that is a fault reports a place between two positions, and is the last. -/
def FaultWithin (first last : Nat) (taken : Lexeme × List Char) : Prop :=
  ∀ e, taken.1 = .fault e → e.Within first last ∧ taken.2 = []

variable {first last first' last' : Nat}

theorem FaultWithin.mono {taken : Lexeme × List Char} (h : FaultWithin first last taken)
    (hfirst : first' ≤ first) (hlast : last ≤ last') : FaultWithin first' last' taken := by
  intro e he
  obtain ⟨hwithin, hnil⟩ := h e he
  exact ⟨hwithin.mono hfirst hlast, hnil⟩

theorem faultWithin_fault {e : SelectorError} (h : e.Within first last) :
    FaultWithin first last (.fault e, []) := by
  intro e' he
  cases he
  exact ⟨h, rfl⟩

theorem faultWithin_of_ne_fault {lexeme : Lexeme} (h : ∀ e, lexeme ≠ .fault e)
    (rest : List Char) :
    FaultWithin first last (lexeme, rest) :=
  fun e he => absurd he (h e)

theorem unclosed_within {b : Bracket} {quotes : Bool} {opening : Nat} {rest : List Char}
    {u : Unclosed} (h : b.slice quotes (opening + 1) rest = .error u) :
    (unclosed b opening u).Within opening (opening + 1 + rest.length) := by
  cases u with
  | bracket => exact within_malformed _ (Nat.le_refl _) (by omega)
  | quote q =>
      obtain ⟨hle, hlt⟩ := Bracket.quote_of_slice h
      exact within_malformed _ (by omega) (by omega)

theorem faultWithin_named {make : List Char → Lexeme}
    (hmake : ∀ letters e, make letters ≠ .fault e) (position : Nat) (sigil : Char)
    (rest : List Char) :
    FaultWithin position (position + 1 + rest.length) (named position sigil make rest) := by
  unfold named
  dsimp only
  split
  · exact faultWithin_fault (within_malformed _ (by omega) (by omega))
  · exact faultWithin_of_ne_fault (hmake _) _

theorem faultWithin_bracketed (position : Nat) (rest : List Char) :
    FaultWithin position (position + 1 + rest.length) (bracketed position rest) := by
  unfold bracketed
  split
  · exact faultWithin_of_ne_fault (by simp) _
  · next hslice => exact faultWithin_fault (unclosed_within hslice)

theorem faultWithin_argument (name : PseudoName) (opening : Nat) (rest : List Char) :
    FaultWithin opening (opening + 1 + rest.length) (argument name opening rest) := by
  unfold argument
  split
  · exact faultWithin_of_ne_fault (by simp) _
  · next hslice => exact faultWithin_fault (unclosed_within hslice)

theorem faultWithin_pseudoClass (position : Nat) (rest : List Char) :
    FaultWithin position (position + 1 + rest.length) (pseudoClass position rest) := by
  unfold pseudoClass
  dsimp only
  split
  · exact faultWithin_fault (within_malformed _ (Nat.le_refl _) (by omega))
  split
  · exact faultWithin_fault (within_malformed _ (Nat.le_refl _) (by omega))
  split
  · next after hafter =>
      have hlength := congrArg List.length
        (List.takeWhile_append_dropWhile (p := isNameChar) (l := rest))
      rw [hafter, List.length_append, List.length_cons] at hlength
      exact (faultWithin_argument _ _ _).mono (by omega) (by omega)
  · exact faultWithin_of_ne_fault (by simp) _

/-- **A token that is a fault** reports a place in the text that is left, and nothing is
left after it. -/
theorem faultWithin_take (inCompound : Bool) (position : Nat) (c : Char) (rest : List Char) :
    FaultWithin position (position + 1 + rest.length) (take inCompound position c rest) := by
  unfold take
  split
  · exact faultWithin_of_ne_fault (by simp) _
  split
  · exact faultWithin_of_ne_fault (by simp) _
  split
  · exact faultWithin_of_ne_fault (by simp) _
  split
  · exact faultWithin_named (by simp) position c rest
  split
  · exact faultWithin_named (by simp) position c rest
  split
  · exact faultWithin_bracketed position rest
  split
  · exact faultWithin_pseudoClass position rest
  split
  · exact faultWithin_of_ne_fault (by simp) _
  split <;> exact faultWithin_of_ne_fault (by simp) _

end Token

/-! ### Conditions and arguments -/

namespace Parser

variable {p : Parser}

theorem valueFlag_within {first stop : Nat} {cs : List Char} (h : first + cs.length ≤ stop) :
    Outcome.Within first stop (valueFlag stop cs) := by
  have hle := List.length_dropWhile_le Text.isBlank cs
  unfold valueFlag
  split
  · exact within_ok _
  · next c rest hcs =>
      rw [hcs, List.length_cons] at hle
      have hle' := List.length_dropWhile_le Text.isBlank rest
      split
      · exact within_error (within_malformed _ (by omega) (by omega))
      · dsimp only
        split
        · exact within_ok _
        · exact within_error (within_malformed _ (by omega) (by omega))

theorem attributeValue_within {first stop : Nat} {cs : List Char} (h : first + cs.length ≤ stop) :
    Outcome.Within first stop (attributeValue stop cs) := by
  have hle := List.length_dropWhile_le Text.isBlank cs
  unfold attributeValue
  split
  · exact within_error (within_malformed _ (by omega) (Nat.le_refl _))
  · next c rest hcs =>
      rw [hcs, List.length_cons] at hle
      split
      · split
        · exact within_error (within_malformed _ (by omega) (by omega))
        · next value after hvalue =>
            have hafter : after.length ≤ rest.length := length_of_readQuoted hvalue
            exact (valueFlag_within (by omega)).bind fun _ _ => within_ok _
      · exact within_ok _

theorem pattern_within (first last : Nat) (source : String) (case : CaseSensitivity) :
    Outcome.Within first last (p.pattern source case) := by
  unfold pattern
  split
  · exact within_ok _
  · exact within_error (within_invalidPattern _ _)

theorem compared_within {first stop : Nat} (name : String) (op : Char) {after : List Char}
    (h : first + after.length ≤ stop) :
    Outcome.Within first stop (p.compared stop name op after) := by
  unfold compared
  refine (attributeValue_within h).bind fun written _ => ?_
  dsimp only
  split
  · exact within_ok _
  · exact (pattern_within _ _ _ _).bind fun _ _ => within_ok _

theorem comparison_within {first stop : Nat} (name : String) (op : Char) {rest : List Char}
    (h : first + rest.length ≤ stop) :
    Outcome.Within first stop (p.comparison stop name op rest) := by
  rw [comparison_eq]
  split
  · exact compared_within name op h
  split
  · next after =>
      rw [List.length_cons] at h
      exact compared_within name op (by omega)
  · exact within_error (within_malformed _ (by omega) (by omega))

/-- **A condition on attributes** reports places between its brackets. -/
theorem attributeTest_within (opening : Nat) (content : List Char) :
    Outcome.Within opening (opening + 1 + content.length) (p.attributeTest opening content) := by
  have hle := List.length_dropWhile_le Text.isBlank content
  have hopening : ∀ reason, (malformed opening reason).Within opening
      (opening + 1 + content.length) :=
    fun reason => within_malformed reason (Nat.le_refl _) (by omega)
  rw [attributeTest_eq]
  split
  · split
    · exact within_error (hopening _)
    · exact within_ok _
  · split
    · exact within_error (hopening _)
    split
    · exact within_ok _
    · next op rest hrest =>
        have hle' := List.length_dropWhile_le (!isOperatorChar ·) (Text.trimStart content)
        rw [hrest, List.length_cons, Text.trimStart] at hle'
        exact comparison_within _ op (by omega)

variable {nested : List Char → Nat → Outcome SelectorList}

/-- **A pseudo-class** reports the place of its parenthesis, or places in its argument. -/
theorem pseudoCall_within {opening : Nat} {argument : List Char}
    (hnested : Outcome.Within (opening + 1) (opening + 1 + argument.length)
      (nested argument (opening + 1))) (name : PseudoName) :
    Outcome.Within opening (opening + 1 + argument.length)
      (p.pseudoCall nested name opening argument) := by
  have hbase : ∀ reason, (malformed (opening + 1) reason).Within opening
      (opening + 1 + argument.length) :=
    fun reason => within_malformed reason (by omega) (by omega)
  have hargument : Outcome.Within opening (opening + 1 + argument.length)
      (nested argument (opening + 1)) := hnested.mono (by omega) (Nat.le_refl _)
  unfold pseudoCall
  cases name with
  | has => exact hargument.map _
  | not => exact hargument.map _
  | contains extent =>
      dsimp only
      split
      · exact within_error (hbase _)
      · exact within_ok _
  | finds extent =>
      dsimp only
      split
      · exact within_error (hbase _)
      · exact (pattern_within _ _ _ _).map _
  | ordinal kind =>
      dsimp only
      split
      · exact within_ok _
      · exact within_error (hbase _)
  | scope => exact within_error (within_malformed _ (Nat.le_refl _) (by omega))
  | structural test => exact within_error (within_malformed _ (Nat.le_refl _) (by omega))

end Parser

/-! ### Steps and runs -/

variable {p : Parser} {nested : List Char → Nat → Outcome SelectorList}

namespace Progress

theorem close_within (progress : Progress) (position : Nat) :
    Outcome.Within position position (progress.close position) := by
  unfold close
  split
  · exact within_error (within_malformed _ (Nat.le_refl _) (Nat.le_refl _))
  · exact within_error (within_malformed _ (Nat.le_refl _) (Nat.le_refl _))
  · exact within_error (within_malformed _ (Nat.le_refl _) (Nat.le_refl _))
  · exact within_ok _
  · exact within_ok _

theorem finish_within (progress : Progress) (position : Nat) :
    Outcome.Within position position (progress.finish position) := by
  unfold finish
  split
  · exact within_error (within_malformed _ (Nat.le_refl _) (Nat.le_refl _))
  · exact progress.close_within position

end Progress

namespace Token

variable {inCompound : Bool} {position : Nat} {c : Char} {rest : List Char} {name : PseudoName}
  {opening : Nat} {argument content : List Char}

/-- The place of a parenthesis is handed on as it is. -/
theorem opening_of_argument {name' : PseudoName} {opening' : Nat}
    (h : (Token.argument name' opening' rest).1 = .pseudo name (some (opening, argument))) :
    opening' = opening := by
  unfold Token.argument at h
  split at h
  · cases h
    rfl
  · cases h

/-- **An argument** is a piece of the text, which starts after its parenthesis. -/
theorem exists_of_take
    (h : (take inCompound position c rest).1 = .pseudo name (some (opening, argument))) :
    ∃ front back, c :: rest = front ++ argument ++ ')' :: back ∧
      opening + 1 = position + front.length ∧ front ≠ [] := by
  obtain ⟨⟨text, htext, hspells⟩, -⟩ := takes_take inCompound position c rest (by simp [h])
  rw [h] at hspells
  cases hspells with
  | @call _ letters _ _ hletters hcloses =>
      generalize (take inCompound position c rest).2 = after at htext
      have htext : c :: rest = ':' :: (letters ++ '(' :: (argument ++ ')' :: after)) := by
        simpa using htext
      obtain ⟨rfl, rfl⟩ := List.cons.inj htext
      have hparen : ∀ d ∈ ('(' :: (argument ++ ')' :: after)).head?, isNameChar d = false := by
        rintro d ⟨⟩
        decide
      obtain ⟨htake, hdrop⟩ := takeWhile_append_of_head hletters hparen
      have hopening : position + 1 + letters.length = opening := by
        rw [(take_sigil _ _ _).2.2.2.2] at h
        simp only [pseudoClass, htake, hdrop] at h
        split at h
        · cases h
        split at h
        · cases h
        · exact opening_of_argument h
      refine ⟨':' :: (letters ++ ['(']), after, by simp, ?_, by simp⟩
      simp only [List.length_cons, List.length_append, List.length_nil]
      omega

/-- What stands between square brackets ends before the text does. -/
theorem length_attribute_lt_of_take (h : (take inCompound position c rest).1 = .attribute content) :
    content.length < rest.length := by
  obtain ⟨⟨text, htext, hspells⟩, -⟩ := takes_take inCompound position c rest (by simp [h])
  rw [h] at hspells
  cases hspells
  have hlength := congrArg List.length htext
  simp only [List.length_append, List.length_cons, List.length_nil] at hlength
  omega

end Token

/-- Reading reports places in the texts that it is given. -/
def ReportsWithin (nested : List Char → Nat → Outcome SelectorList) : Prop :=
  ∀ argument base, Outcome.Within base (base + argument.length) (nested argument base)

/-- **A step** reports a place in the text that is left when its token is taken. -/
theorem Progress.take_within (hnested : ReportsWithin nested) (progress : Progress)
    (inCompound : Bool) (position : Nat) (c : Char) (rest : List Char) :
    Outcome.Within position (position + 1 + rest.length)
      (progress.take p nested ⟨position, (Token.take inCompound position c rest).1⟩) := by
  have hhere : ∀ reason, (malformed position reason).Within position
      (position + 1 + rest.length) :=
    fun reason => within_malformed reason (Nat.le_refl _) (by omega)
  cases hlexeme : (Token.take inCompound position c rest).1 with
  | blank => exact within_ok _
  | comma => exact ((progress.close_within position).mono (Nat.le_refl _) (by omega)).map _
  | combinator c via =>
      simp only [take, addCombinator]
      split
      · exact within_ok _
      · exact within_ok _
      · exact within_ok _
      · exact within_error (hhere _)
  | star => exact within_ok _
  | type letters =>
      simp only [take, addType]
      split
      · exact within_error (hhere _)
      · exact within_ok _
  | id letters => exact within_ok _
  | ofClass letters => exact within_ok _
  | «attribute» content =>
      have hlt := Token.length_attribute_lt_of_take hlexeme
      exact ((Parser.attributeTest_within position content).mono (Nat.le_refl _) (by omega)).map _
  | pseudo name argument =>
      cases argument with
      | none =>
          cases name with
          | scope => exact within_ok _
          | structural test => exact within_ok _
          | _ => exact within_error (hhere _)
      | some argument =>
          obtain ⟨opening, argument⟩ := argument
          obtain ⟨front, back, htext, hopening, hne⟩ := Token.exists_of_take hlexeme
          have hlength := congrArg List.length htext
          have hpos := List.length_pos_iff.2 hne
          simp only [List.length_append, List.length_cons] at hlength
          have hcall := Parser.pseudoCall_within (p := p) (hnested argument (opening + 1)) name
          exact (hcall.mono (by omega) (by omega)).map _
  | stray c =>
      refine within_error ?_
      unfold refuse
      split <;> exact hhere _
  | fault e => exact within_error (Token.faultWithin_take inCompound position c rest e hlexeme).1

namespace Parser

/-- **A run** reports a place in the text that it reads. -/
theorem resume_within (hnested : ReportsWithin nested) (inCompound : Bool) (position : Nat)
    (progress : Progress) (cs : List Char) :
    Outcome.Within position (position + cs.length)
      (p.resume nested inCompound position progress cs) := by
  induction inCompound, position, cs using Token.induction generalizing progress with
  | nil inCompound position =>
      rw [resume_nil]
      exact progress.finish_within position
  | cons inCompound position c cs ih =>
      have hle := Token.length_take_le inCompound position c cs
      rw [resume_cons, List.length_cons]
      have hstep := progress.take_within (p := p) hnested inCompound position c cs
      exact (hstep.mono (Nat.le_refl _) (by omega)).bind fun progress' _ =>
        (ih progress').mono (by omega) (by omega)

theorem parseWithin_within (depth : Nat) : ReportsWithin (p.parseWithin depth) := by
  induction depth with
  | zero =>
      intro cs base
      exact within_error (within_malformed _ (Nat.le_refl _) (by omega))
  | succ depth ih =>
      intro cs base
      rw [parseWithin_succ]
      exact resume_within ih false base .start cs

/-- **A whole text** reports places between its start and its end. -/
theorem parseAt_within : ReportsWithin p.parseAt :=
  fun cs base => parseWithin_within (cs.length + 1) cs base

end Parser

/-! ### Arguments at any depth -/

/-- The tokens of a text stand where they are taken from. -/
theorem Token.exists_of_mem_scan {inCompound : Bool} {position : Nat} {cs : List Char}
    {token : Token} (h : token ∈ scan inCompound position cs) :
    ∃ inCompound' front c rest, cs = front ++ c :: rest ∧
      token = ⟨position + front.length,
        (take inCompound' (position + front.length) c rest).1⟩ := by
  induction inCompound, position, cs using Token.induction with
  | nil inCompound position =>
      rw [scan] at h
      cases h
  | cons inCompound position c cs ih =>
      rw [scan] at h
      rcases List.mem_cons.1 h with rfl | hlater
      · exact ⟨inCompound, [], c, cs, rfl, rfl⟩
      obtain ⟨inCompound', front, d, rest, hafter, htoken⟩ := ih hlater
      have hne : ∀ e, (take inCompound position c cs).1 ≠ .fault e := by
        intro e he
        rw [(faultWithin_take inCompound position c cs e he).2] at hafter
        simp at hafter
      obtain ⟨⟨text, htext, -⟩, -⟩ := takes_take inCompound position c cs hne
      rw [List.singleton_append] at htext
      have hlength := congrArg List.length htext
      rw [List.length_cons, List.length_append] at hlength
      have hplace : position + (cs.length + 1 - (take inCompound position c cs).2.length) +
          front.length = position + (text ++ front).length := by
        rw [List.length_append]
        omega
      rw [hplace] at htoken
      refine ⟨inCompound', text ++ front, d, rest, ?_, htoken⟩
      rw [htext, hafter, List.append_assoc]

namespace Parser

/-- **What a reading comes to.**  Reading a text that stands at `base` comes to the argument
of a `:has` or `:not` that starts at `start`, if everything before it can be read; and so it
comes to what the reading of that argument comes to. -/
inductive ComesTo (p : Parser) : List Char → Nat → List Char → Nat → Prop
  | argument {cs argument : List Char} {base position opening : Nat} {name : PseudoName}
      {before after : List Token} {progress : Progress} (hname : name = .has ∨ name = .not)
      (hscan : Token.scan false base cs =
        before ++ ⟨position, .pseudo name (some (opening, argument))⟩ :: after)
      (hread : before.foldlM (Progress.take p p.parseAt) .start = .ok progress) :
      ComesTo p cs base argument (opening + 1)
  | inside {cs argument argument' : List Char} {base start start' : Nat}
      (h : ComesTo p cs base argument start) (h' : ComesTo p argument start argument' start') :
      ComesTo p cs base argument' start'

namespace ComesTo

variable {cs argument : List Char} {base start : Nat}

/-- The argument is a piece of the text, and `start` is where it starts. -/
theorem exists_split (h : p.ComesTo cs base argument start) :
    ∃ front back, cs = front ++ argument ++ back ∧ start = base + front.length := by
  induction h with
  | argument hname hscan hread =>
      obtain ⟨inCompound, front, c, rest, hcs, htoken⟩ :=
        Token.exists_of_mem_scan (hscan ▸ List.mem_append_right _ List.mem_cons_self)
      obtain ⟨rfl, hlexeme⟩ := Token.mk.inj htoken
      obtain ⟨front', back, htext, hopening, -⟩ := Token.exists_of_take hlexeme.symm
      refine ⟨front ++ front', ')' :: back, ?_, ?_⟩
      · simp [hcs, htext]
      · rw [hopening, List.length_append, Nat.add_assoc]
  | inside h h' ih ih' =>
      obtain ⟨front, back, rfl, rfl⟩ := ih
      obtain ⟨front', back', rfl, rfl⟩ := ih'
      refine ⟨front ++ front', back' ++ back, by simp, ?_⟩
      rw [List.length_append, Nat.add_assoc]

/-- **An error in the argument** is the error of the text. -/
theorem error (h : p.ComesTo cs base argument start) {e : SelectorError}
    (he : p.parseAt argument start = .error e) : p.parseAt cs base = .error e := by
  induction h with
  | @argument cs argument base position opening name before after progress hname hscan hread =>
      have hstep : progress.take p p.parseAt
          ⟨position, .pseudo name (some (opening, argument))⟩ = .error e := by
        rcases hname with rfl | rfl <;> simp [Progress.take, pseudoCall, he, Except.map]
      rw [parseAt_eq_resume, resume, hscan, List.foldlM_append, hread]
      simp only [bind, Except.bind, List.foldlM_cons, hstep]
  | inside h h' ih ih' => exact ih (ih' he)

end ComesTo

/-- **Positions are absolute, and inside the text.**  No error is reported behind the end of
the text.  A text that stands at some base comes to what it comes to at the start, with the
base added to the position of an error.  And the error of an argument of `:has` or `:not`,
at any depth, is that of the whole text, with the place where the argument starts added. -/
theorem parse_error_positions (p : Parser) (text : String) :
    (∀ position reason, p.parse text = .error (.malformed position reason) →
      position ≤ text.length) ∧
    (∀ base, p.parseAt text.toList base = Outcome.shift base (p.parseAt text.toList 0)) ∧
    ∀ argument start, p.ComesTo text.toList 0 argument start →
      (∃ front back, text.toList = front ++ argument ++ back ∧ start = front.length) ∧
      ∀ e, p.parseAt argument 0 = .error e → p.parse text = .error (e.shift start) := by
  have hshift : ∀ cs base, p.parseAt cs base = Outcome.shift base (p.parseAt cs 0) := by
    intro cs base
    have h := parseAt_shift (p := p) cs 0 base
    rwa [Nat.zero_add] at h
  refine ⟨fun position reason h => ?_, hshift text.toList, fun argument start h => ⟨?_, ?_⟩⟩
  · have hplace := (parseAt_within text.toList 0 _ h position rfl).2
    rwa [Nat.zero_add, String.length_toList] at hplace
  · obtain ⟨front, back, htext, hstart⟩ := h.exists_split
    exact ⟨front, back, htext, by rwa [Nat.zero_add] at hstart⟩
  · intro e he
    have hargument : p.parseAt argument start = .error (e.shift start) := by
      rw [hshift, he]
      rfl
    exact h.error hargument

/-- The end of an argument in an argument, where a selector is missing, is reported in the
outermost text. -/
theorem parse_error_positions_nested :
    let p : Parser := ⟨.standard, .literal⟩
    p.parseAt ['>'] 0 = .error (.malformed 1 .expectedSelector) ∧
      p.ComesTo ":has(b:not(>))".toList 0 ['>'] 11 ∧
      p.parse ":has(b:not(>))" = .error (.malformed 12 .expectedSelector) ∧
      12 ≤ ":has(b:not(>))".length := by
  intro p
  have hmissing : p.parseAt ['>'] 0 = .error (.malformed 1 .expectedSelector) := by decide +kernel
  have hscan : Token.scan false 0 ":has(b:not(>))".toList =
      [] ++ ⟨0, .pseudo .has (some (4, "b:not(>)".toList))⟩ :: [] := by decide +kernel
  have hscan' : Token.scan false 5 "b:not(>)".toList =
      [⟨5, .type ['b']⟩] ++ ⟨6, .pseudo .not (some (10, ['>']))⟩ :: [] := by decide +kernel
  have houter : p.ComesTo ":has(b:not(>))".toList 0 "b:not(>)".toList 5 :=
    .argument (.inl rfl) hscan rfl
  have hinner : p.ComesTo "b:not(>)".toList 5 ['>'] 11 := .argument (.inr rfl) hscan' rfl
  obtain ⟨hplace, -, hinside⟩ := parse_error_positions p ":has(b:not(>))"
  have herror := (hinside _ _ (houter.inside hinner)).2 _ hmissing
  exact ⟨hmissing, houter.inside hinner, herror, hplace _ _ herror⟩

end Parser

end MarkupQuery
