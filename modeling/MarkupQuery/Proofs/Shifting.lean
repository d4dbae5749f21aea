import MarkupQuery.Proofs.Conditions
import MarkupQuery.Proofs.Spelling

/-!
# Texts that stand further on

A text is read in the same way wherever it stands, and only the positions in its errors
move with it.  So an argument is read as if it were a text of its own, and how deep
arguments may be nested makes no difference, once that is deeper than the text is long.

* `Outcome.shift` — what comes of reading a text that stands further on;
* `Token.take_shift` — the same tokens, further on;
* `Parser.resume_shift` — the same steps;
* `Parser.parseAt_eq_resume`, `Parser.parseAt_shift` — whole texts.
-/

namespace MarkupQuery

/-! ### Outcomes further on -/

namespace Outcome

variable {α β : Type}

/-- The outcome for a text that stands `offset` characters further on. -/
def shift (offset : Nat) (o : Outcome α) : Outcome α := o.mapError (·.shift offset)

@[simp] theorem shift_ok (offset : Nat) (a : α) : shift offset (.ok a) = .ok a := rfl

@[simp] theorem shift_error (offset : Nat) (e : SelectorError) :
    shift offset (.error e : Outcome α) = .error (e.shift offset) := rfl

theorem shift_eq_ok_iff {offset : Nat} {o : Outcome α} {a : α} :
    shift offset o = .ok a ↔ o = .ok a := by
  cases o <;> simp [shift, Except.mapError]

theorem shift_map (offset : Nat) (f : α → β) (o : Outcome α) :
    shift offset (o.map f) = (shift offset o).map f := by
  cases o <;> rfl

theorem shift_bind (offset : Nat) (f : α → Outcome β) (o : Outcome α) :
    shift offset (o >>= f) = shift offset o >>= fun a => shift offset (f a) := by
  cases o <;> rfl

theorem shift_zero (o : Outcome α) : shift 0 o = o := by
  rcases o with (⟨_, _⟩ | ⟨_, _⟩) | a <;> rfl

end Outcome

/-! ### Slices -/

namespace Delimited

/-- Why a slice further on is not found. -/
def Unclosed.shift (offset : Nat) : Unclosed → Unclosed
  | .bracket => .bracket
  | .quote position => .quote (position + offset)

/-- Characters are kept in front of a slice wherever it stands. -/
theorem mapError_map_keep (offset : Nat) (cs : List Char)
    (e : Except Unclosed (List Char × List Char)) :
    (e.map (keep cs)).mapError (Unclosed.shift offset) =
      (e.mapError (Unclosed.shift offset)).map (keep cs) := by
  cases e <;> rfl

/-- The search for the closing bracket only carries positions along. -/
theorem sliceFrom_shift (offset : Nat) (b : Bracket) (quotes : Bool) (depth squares : Nat)
    (quoted : Option (Char × Nat)) (position : Nat) (cs : List Char) :
    sliceFrom b quotes depth squares (quoted.map fun q => (q.1, q.2 + offset))
        (position + offset) cs =
      (sliceFrom b quotes depth squares quoted position cs).mapError
        (Unclosed.shift offset) := by
  fun_induction sliceFrom b quotes depth squares quoted position cs with
  | case1 => rfl
  | case2 => rfl
  | case3 depth squares quoted position c rest ih =>
      rw [sliceFrom, mapError_map_keep, ← ih, Nat.add_right_comm]
  | case4 depth squares position c rest hnot quote start quoted ih =>
      have hquoted : (if c = quote then none else some (quote, start + offset)) =
          quoted.map fun q => (q.1, q.2 + offset) := by
        unfold quoted
        split <;> rfl
      rw [Option.map_some, sliceFrom, mapError_map_keep, ← ih, Nat.add_right_comm]
      · simp only [hquoted]
      · exact hnot
  | case5 depth squares position c rest hnot squares' hquote ih =>
      cases depth <;> rw [Option.map_none, sliceFrom, if_pos hquote, mapError_map_keep, ← ih,
        Nat.add_right_comm, Option.map_some] <;> exact hnot
  | case6 squares position rest hnot squares' hquote =>
      rw [Option.map_none, sliceFrom, if_neg hquote, if_pos rfl]
      · rfl
      · exact hnot
  | case7 squares position rest depth hnot squares' hquote ih =>
      rw [Option.map_none, sliceFrom, if_neg hquote, if_pos rfl, mapError_map_keep, ← ih,
        Nat.add_right_comm, Option.map_none]
      exact hnot
  | case8 depth squares position c rest hnot squares' hquote hclosing depth' ih =>
      cases depth <;> rw [Option.map_none, sliceFrom, if_neg hquote, if_neg hclosing,
        mapError_map_keep, ← ih, Nat.add_right_comm, Option.map_none] <;> exact hnot

theorem Bracket.slice_shift (offset : Nat) (b : Bracket) (quotes : Bool) (position : Nat)
    (cs : List Char) :
    b.slice quotes (position + offset) cs =
      (b.slice quotes position cs).mapError (Unclosed.shift offset) :=
  sliceFrom_shift offset b quotes 0 _ none position cs

end Delimited

open Delimited

/-! ### Tokens -/

/-- A token whose text stands further on. -/
def Lexeme.shift (offset : Nat) : Lexeme → Lexeme
  | .pseudo name (some (opening, argument)) => .pseudo name (some (opening + offset, argument))
  | .fault e => .fault (e.shift offset)
  | lexeme => lexeme

@[simp] theorem Lexeme.isSimple_shift (offset : Nat) (lexeme : Lexeme) :
    (lexeme.shift offset).isSimple = lexeme.isSimple := by
  cases lexeme with
  | pseudo name argument => cases argument <;> rfl
  | _ => rfl

namespace Token

theorem unclosed_shift (offset : Nat) (b : Bracket) (opening : Nat) (e : Unclosed) :
    unclosed b (opening + offset) (e.shift offset) = (unclosed b opening e).shift offset := by
  cases e <;> rfl

theorem named_shift (offset : Nat) {make : List Char → Lexeme}
    (hmake : ∀ letters, (make letters).shift offset = make letters) (position : Nat)
    (sigil : Char) (rest : List Char) :
    named (position + offset) sigil make rest =
      ((named position sigil make rest).1.shift offset, (named position sigil make rest).2) := by
  unfold named
  dsimp only
  split
  · rw [Nat.add_right_comm]
    rfl
  · rw [hmake]

theorem bracketed_shift (offset position : Nat) (rest : List Char) :
    bracketed (position + offset) rest =
      ((bracketed position rest).1.shift offset, (bracketed position rest).2) := by
  unfold bracketed
  rw [Nat.add_right_comm, Bracket.slice_shift]
  cases Bracket.square.slice true (position + 1) rest with
  | ok slice => rfl
  | error e => simp [Except.mapError, unclosed_shift, Lexeme.shift]

theorem argument_shift (offset : Nat) (name : PseudoName) (opening : Nat) (rest : List Char) :
    argument name (opening + offset) rest =
      ((argument name opening rest).1.shift offset, (argument name opening rest).2) := by
  unfold argument
  rw [Nat.add_right_comm, Bracket.slice_shift]
  cases Bracket.round.slice (name == .has || name == .not) (opening + 1) rest with
  | ok slice => rfl
  | error e => simp [Except.mapError, unclosed_shift, Lexeme.shift]

theorem pseudoClass_shift (offset position : Nat) (rest : List Char) :
    pseudoClass (position + offset) rest =
      ((pseudoClass position rest).1.shift offset, (pseudoClass position rest).2) := by
  unfold pseudoClass
  dsimp only
  split
  · rfl
  split
  · rfl
  split
  · have hopening : position + offset + 1 + (rest.takeWhile isNameChar).length =
        position + 1 + (rest.takeWhile isNameChar).length + offset := by omega
    rw [hopening, argument_shift]
  · rfl

/-- **The same tokens**, further on. -/
theorem take_shift (offset : Nat) (inCompound : Bool) (position : Nat) (c : Char)
    (rest : List Char) :
    take inCompound (position + offset) c rest =
      ((take inCompound position c rest).1.shift offset,
        (take inCompound position c rest).2) := by
  unfold take
  split
  · rfl
  split
  · rfl
  split
  · rfl
  split
  · exact named_shift offset (fun _ => rfl) position c rest
  split
  · exact named_shift offset (fun _ => rfl) position c rest
  split
  · exact bracketed_shift offset position rest
  split
  · exact pseudoClass_shift offset position rest
  split
  · rfl
  split <;> rfl

end Token

/-! ### Conditions and arguments -/

/-- What comes after a quoted value is a part of the text. -/
theorem Delimited.length_of_readQuoted {quote : Char} {cs : List Char}
    {slice : List Char × List Char} (h : readQuoted quote cs = some slice) :
    slice.2.length ≤ cs.length := by
  fun_induction readQuoted quote cs generalizing slice with
  | case1 => cases h
  | case2 c rest ih =>
      obtain ⟨inner, hinner, rfl⟩ := Option.map_eq_some_iff.1 h
      have hle := ih hinner
      simp only [keep, List.length_cons]
      omega
  | case3 rest =>
      cases h
      simp
  | case4 c rest _ _ ih =>
      obtain ⟨inner, hinner, rfl⟩ := Option.map_eq_some_iff.1 h
      have hle := ih hinner
      simp only [keep, List.length_cons]
      omega

namespace Parser

variable {p : Parser} {stop : Nat}

theorem valueFlag_shift (offset : Nat) {cs : List Char} (h : cs.length ≤ stop) :
    valueFlag (stop + offset) cs = Outcome.shift offset (valueFlag stop cs) := by
  have hle := List.length_dropWhile_le Text.isBlank cs
  unfold valueFlag
  split
  · rfl
  · next c rest hcs =>
      rw [hcs, List.length_cons] at hle
      have hle' := List.length_dropWhile_le Text.isBlank rest
      split
      · have hmove : stop + offset - (rest.length + 1) = stop - (rest.length + 1) + offset := by
          omega
        rw [hmove]
        rfl
      · dsimp only
        split
        · rfl
        · have hmove : stop + offset - (rest.dropWhile Text.isBlank).length =
              stop - (rest.dropWhile Text.isBlank).length + offset := by omega
          rw [hmove]
          rfl

theorem attributeValue_shift (offset : Nat) {cs : List Char} (h : cs.length ≤ stop) :
    attributeValue (stop + offset) cs = Outcome.shift offset (attributeValue stop cs) := by
  have hle := List.length_dropWhile_le Text.isBlank cs
  unfold attributeValue
  split
  · rfl
  · next c rest hcs =>
      rw [hcs, List.length_cons] at hle
      split
      · split
        · have hmove : stop + offset - (rest.length + 1) = stop - (rest.length + 1) + offset := by
            omega
          rw [hmove]
          rfl
        · next value after hvalue =>
            have hafter : after.length ≤ rest.length := length_of_readQuoted hvalue
            rw [valueFlag_shift offset (by omega), Outcome.shift_bind]
            rfl
      · rfl

/-- A pattern is refused without a position. -/
theorem pattern_shift (offset : Nat) (source : String) (case : CaseSensitivity) :
    Outcome.shift offset (p.pattern source case) = p.pattern source case := by
  unfold pattern
  split <;> rfl

theorem compared_shift (offset : Nat) (name : String) (op : Char) {after : List Char}
    (h : after.length ≤ stop) :
    p.compared (stop + offset) name op after =
      Outcome.shift offset (p.compared stop name op after) := by
  unfold compared
  rw [attributeValue_shift offset h, Outcome.shift_bind]
  congr 1
  funext written
  dsimp only
  split
  · rfl
  · rw [Outcome.shift_bind, pattern_shift]
    rfl

theorem comparison_shift (offset : Nat) (name : String) (op : Char) {rest : List Char}
    (h : rest.length ≤ stop) :
    p.comparison (stop + offset) name op rest =
      Outcome.shift offset (p.comparison stop name op rest) := by
  rw [comparison_eq, comparison_eq]
  split
  · exact compared_shift offset name op h
  split
  · exact compared_shift offset name op (Nat.le_of_succ_le h)
  · have hmove : stop + offset - rest.length = stop - rest.length + offset := by omega
    rw [hmove]
    rfl

/-- **A condition on attributes** is read in the same way further on. -/
theorem attributeTest_shift (offset opening : Nat) (content : List Char) :
    p.attributeTest (opening + offset) content =
      Outcome.shift offset (p.attributeTest opening content) := by
  have hle := List.length_dropWhile_le Text.isBlank content
  rw [attributeTest_eq, attributeTest_eq]
  split
  · split <;> rfl
  · split
    · rfl
    split
    · rfl
    · next op rest hrest =>
        have hle' := List.length_dropWhile_le (!isOperatorChar ·) (Text.trimStart content)
        have hstop : opening + offset + 1 + content.length =
            opening + 1 + content.length + offset := by omega
        rw [hrest, List.length_cons, Text.trimStart] at hle'
        rw [hstop, comparison_shift offset _ op (by omega)]

variable {nested nested' : List Char → Nat → Outcome SelectorList}

theorem plainPseudo_shift (offset position : Nat) (name : PseudoName) :
    plainPseudo (position + offset) name = Outcome.shift offset (plainPseudo position name) := by
  cases name <;> rfl

/-- A pseudo-class is read in the same way further on if its argument is. -/
theorem pseudoCall_shift {offset opening : Nat} {argument : List Char}
    (hnested : nested' argument (opening + 1 + offset) =
      Outcome.shift offset (nested argument (opening + 1))) (name : PseudoName) :
    p.pseudoCall nested' name (opening + offset) argument =
      Outcome.shift offset (p.pseudoCall nested name opening argument) := by
  unfold pseudoCall
  rw [Nat.add_right_comm]
  cases name with
  | has => simp only [hnested, Outcome.shift_map]
  | not => simp only [hnested, Outcome.shift_map]
  | contains extent =>
      dsimp only
      split <;> rfl
  | finds extent =>
      dsimp only
      split
      · rfl
      · rw [Outcome.shift_map, pattern_shift]
  | ordinal kind =>
      dsimp only
      split <;> rfl
  | scope => rfl
  | structural test => rfl

end Parser

/-! ### Steps and runs -/

variable {p : Parser} {nested nested' : List Char → Nat → Outcome SelectorList}

namespace Progress

theorem close_shift (offset : Nat) (progress : Progress) (position : Nat) :
    progress.close (position + offset) = Outcome.shift offset (progress.close position) := by
  unfold close
  split <;> rfl

theorem finish_shift (offset : Nat) (progress : Progress) (position : Nat) :
    progress.finish (position + offset) = Outcome.shift offset (progress.finish position) := by
  unfold finish
  split
  · rfl
  · exact close_shift offset progress position

/-- A step further on. -/
theorem take_shift {offset : Nat} {lexeme : Lexeme}
    (hnested : ∀ name opening argument, lexeme = .pseudo name (some (opening, argument)) →
      nested' argument (opening + 1 + offset) =
        Outcome.shift offset (nested argument (opening + 1)))
    (progress : Progress) (position : Nat) :
    progress.take p nested' ⟨position + offset, lexeme.shift offset⟩ =
      Outcome.shift offset (progress.take p nested ⟨position, lexeme⟩) := by
  cases lexeme with
  | blank => rfl
  | comma =>
      simp only [take, Lexeme.shift, close_shift, Outcome.shift_map]
  | combinator c via =>
      simp only [take, Lexeme.shift, addCombinator]
      split <;> rfl
  | star => rfl
  | type letters =>
      simp only [take, Lexeme.shift, addType]
      split <;> rfl
  | id letters => rfl
  | ofClass letters => rfl
  | «attribute» content =>
      simp only [take, Lexeme.shift, Parser.attributeTest_shift, Outcome.shift_map]
  | pseudo name argument =>
      cases argument with
      | none => simp only [take, Lexeme.shift, Parser.plainPseudo_shift, Outcome.shift_map]
      | some argument =>
          obtain ⟨opening, argument⟩ := argument
          simp only [take, Lexeme.shift, Parser.pseudoCall_shift (hnested _ _ _ rfl),
            Outcome.shift_map]
  | stray c =>
      simp only [take, Lexeme.shift, refuse]
      split <;> rfl
  | fault e => rfl

end Progress

/-- An argument is shorter than the text of its token. -/
theorem Token.length_argument_le_of_take {inCompound : Bool} {position : Nat} {c : Char}
    {rest : List Char} {name : PseudoName} {opening : Nat} {argument : List Char}
    (h : (take inCompound position c rest).1 = .pseudo name (some (opening, argument))) :
    argument.length ≤ rest.length := by
  obtain ⟨⟨text, htext, hspells⟩, -⟩ := takes_take inCompound position c rest (by simp [h])
  rw [h] at hspells
  cases hspells
  have hlength := congrArg List.length htext
  simp only [List.length_append, List.length_cons, List.length_nil] at hlength
  omega

namespace Parser

/-- **The same steps**, further on.  The arguments that a text can have are shorter. -/
theorem resume_shift {offset n : Nat}
    (hnested : ∀ argument base, argument.length < n →
      nested' argument (base + offset) = Outcome.shift offset (nested argument base))
    {cs : List Char} (hlength : cs.length ≤ n) (inCompound : Bool) (position : Nat)
    (progress : Progress) :
    p.resume nested' inCompound (position + offset) progress cs =
      Outcome.shift offset (p.resume nested inCompound position progress cs) := by
  induction inCompound, position, cs using Token.induction generalizing progress with
  | nil inCompound position => rw [resume_nil, resume_nil, Progress.finish_shift]
  | cons inCompound position c cs ih =>
      rw [List.length_cons] at hlength
      have hle := Token.length_take_le inCompound position c cs
      rw [resume_cons, resume_cons, Token.take_shift, Progress.take_shift, Outcome.shift_bind]
      · congr 1
        funext progress'
        rw [Lexeme.isSimple_shift, Nat.add_right_comm]
        exact ih (by omega) progress'
      · -- an argument is shorter than the text, so that `nested` is known to read it
        intro name opening argument hlexeme
        have hargument := Token.length_argument_le_of_take hlexeme
        exact hnested argument (opening + 1) (by omega)

/-- Texts are read in the same way wherever they stand, and whatever the depth that
they do not reach. -/
theorem parseWithin_shift {depth depth' : Nat} {cs : List Char} (h : cs.length < depth)
    (h' : cs.length < depth') (base offset : Nat) :
    p.parseWithin depth' cs (base + offset) =
      Outcome.shift offset (p.parseWithin depth cs base) := by
  induction depth generalizing depth' cs base with
  | zero => omega
  | succ depth ih =>
      cases depth' with
      | zero => omega
      | succ depth' =>
          rw [parseWithin_succ, parseWithin_succ]
          refine resume_shift (n := cs.length) (fun argument base hargument => ?_) (le_refl _) _ _ _
          exact ih (by omega) (by omega) base

/-- **An argument is read as a text of its own.** -/
theorem parseAt_eq_resume (cs : List Char) (base : Nat) :
    p.parseAt cs base = p.resume p.parseAt false base .start cs := by
  have hsame : ∀ argument base, argument.length < cs.length →
      p.parseAt argument (base + 0) =
        Outcome.shift 0 (p.parseWithin cs.length argument base) := fun argument base hargument =>
    parseWithin_shift hargument (Nat.lt_succ_self _) base 0
  have hresume := resume_shift (p := p) hsame (le_refl _) false base .start
  rw [Outcome.shift_zero] at hresume
  exact hresume.symm

/-- **Where a text stands** only moves the positions in its errors. -/
theorem parseAt_shift (cs : List Char) (base offset : Nat) :
    p.parseAt cs (base + offset) = Outcome.shift offset (p.parseAt cs base) :=
  parseWithin_shift (Nat.lt_succ_self _) (Nat.lt_succ_self _) base offset

end Parser

end MarkupQuery
