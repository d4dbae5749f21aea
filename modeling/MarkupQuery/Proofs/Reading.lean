import MarkupQuery.Selector.Parser

/-!
# Reading token by token

Reading a text is a run of steps, one for each token.  What a step can do is said
once, and whatever every step keeps is kept by the whole run.

* `Parser.resume` — reading on from a state that has been reached;
* `Token.induction` — a text is read from one token to the next;
* `Reads` — the simple selector that a token stands for;
* `take_eq_ok_iff` — all that a step can do;
* `resume_preserves` — invariants of steps hold at the end of a run.
-/

namespace MarkupQuery

open Delimited

/-- Whether a simple selector is a type name, which has to come first. -/
def Simple.isType : Simple → Bool
  | .type _ => true
  | _ => false

/-- Whether a compound is being read. -/
def Progress.isInside (progress : Progress) : Bool :=
  match progress.place with
  | .inside _ _ => true
  | _ => false

variable {p : Parser} {nested : List Char → Nat → Outcome SelectorList}

/-- The simple selector that a token stands for. -/
inductive Reads (p : Parser) (nested : List Char → Nat → Outcome SelectorList)
    (position : Nat) : Lexeme → Simple → Prop
  | star : Reads p nested position .star .universal
  | type (letters : List Char) :
      Reads p nested position (.type letters)
        (.type (String.ofList (letters.map fun c => if c = '|' then ':' else c.toLower)))
  | id (letters : List Char) :
      Reads p nested position (.id letters) (.id (String.ofList letters))
  | ofClass (letters : List Char) :
      Reads p nested position (.ofClass letters) (.ofClass (String.ofList letters))
  | condition {content : List Char} {test : AttributeTest}
      (h : p.attributeTest position content = .ok test) :
      Reads p nested position (.attribute content) (.attribute test)
  | scope : Reads p nested position (.pseudo .scope none) .scope
  | structural (test : StructuralTest) :
      Reads p nested position (.pseudo (.structural test) none) (.structural test)
  | has {opening : Nat} {argument : List Char} {list : SelectorList}
      (h : nested argument (opening + 1) = .ok list) :
      Reads p nested position (.pseudo .has (some (opening, argument))) (.has list)
  | not {opening : Nat} {argument : List Char} {list : SelectorList}
      (h : nested argument (opening + 1) = .ok list) :
      Reads p nested position (.pseudo .not (some (opening, argument))) (.not list)
  | contains (extent : Extent) (opening : Nat) {argument : List Char}
      (h : Text.lower (Text.trim (unescape argument)) ≠ []) :
      Reads p nested position (.pseudo (.contains extent) (some (opening, argument)))
        (.contains extent (String.ofList (Text.lower (Text.trim (unescape argument)))))
  | finds (extent : Extent) (opening : Nat) {argument : List Char} {pattern : Pattern}
      (hne : Text.trim argument ≠ [])
      (h : p.pattern (String.ofList argument) p.config.patterns = .ok pattern) :
      Reads p nested position (.pseudo (.finds extent) (some (opening, argument)))
        (.finds extent pattern)
  | ordinal (kind : OrdinalKind) (opening : Nat) {argument : List Char} {bound : Nat}
      (h : Parser.index? (Text.trim argument) = some bound) :
      Reads p nested position (.pseudo (.ordinal kind) (some (opening, argument)))
        (.ordinal ⟨kind, bound⟩)

/-- The outcome of a mapped reading is good just when that of the reading is. -/
theorem Outcome.map_eq_ok_iff {α β : Type} {f : α → β} {o : Outcome α} {b : β} :
    o.map f = .ok b ↔ ∃ a, o = .ok a ∧ f a = b := by
  cases o <;> simp [Except.map]

/-- The outcome of two readings in a row is good just when both are. -/
theorem Outcome.bind_eq_ok_iff {α β : Type} {f : α → Outcome β} {o : Outcome α} {b : β} :
    o >>= f = .ok b ↔ ∃ a, o = .ok a ∧ f a = .ok b := by
  cases o <;> simp [bind, Except.bind]

namespace Reads

variable {position : Nat} {s : Simple}

/-- A pseudo-class without argument is read as its token says. -/
theorem of_plainPseudo {name : PseudoName} (h : Parser.plainPseudo position name = .ok s) :
    Reads p nested position (.pseudo name none) s := by
  cases name <;> cases h
  · exact .scope
  · exact .structural _

/-- A pseudo-class with an argument is read as its token says. -/
theorem of_pseudoCall {name : PseudoName} {opening : Nat} {argument : List Char}
    (h : p.pseudoCall nested name opening argument = .ok s) :
    Reads p nested position (.pseudo name (some (opening, argument))) s := by
  cases name with
  | scope => cases h
  | structural test => cases h
  | has =>
      obtain ⟨list, hlist, rfl⟩ := Outcome.map_eq_ok_iff.1 h
      exact .has hlist
  | not =>
      obtain ⟨list, hlist, rfl⟩ := Outcome.map_eq_ok_iff.1 h
      exact .not hlist
  | contains extent =>
      simp only [Parser.pseudoCall] at h
      split at h
      · cases h
      · next hne =>
          cases h
          exact .contains extent opening hne
  | finds extent =>
      simp only [Parser.pseudoCall] at h
      split at h
      · cases h
      · next hne =>
          obtain ⟨pattern, hpattern, rfl⟩ := Outcome.map_eq_ok_iff.1 h
          exact .finds extent opening hne hpattern
  | ordinal kind =>
      simp only [Parser.pseudoCall] at h
      split at h
      · next bound hbound =>
          cases h
          exact .ordinal kind opening hbound
      · cases h

end Reads

namespace Progress

/-- **What a step can do.**  It takes a blank, a comma or a combinator, or it adds the
simple selector that the token stands for. -/
theorem take_eq_ok_iff {progress progress' : Progress} {token : Token} :
    progress.take p nested token = .ok progress' ↔
      (token.lexeme = .blank ∧ progress' = progress.addBlank) ∨
      (token.lexeme = .comma ∧ ∃ done, progress.close token.position = .ok done ∧
        progress' = ⟨done, .opening⟩) ∨
      (∃ c via, token.lexeme = .combinator c via ∧
        progress.addCombinator token.position c via = .ok progress') ∨
      (∃ s, Reads p nested token.position token.lexeme s ∧
        (s.isType = true → progress.isInside = false) ∧ progress' = progress.addSimple s) := by
  obtain ⟨position, lexeme⟩ := token
  constructor
  · intro h
    cases lexeme with
    | blank => exact .inl ⟨rfl, by cases h; rfl⟩
    | comma =>
        obtain ⟨done, hdone, rfl⟩ := Outcome.map_eq_ok_iff.1 h
        exact .inr (.inl ⟨rfl, done, hdone, rfl⟩)
    | combinator c via => exact .inr (.inr (.inl ⟨c, via, rfl, h⟩))
    | star =>
        cases h
        exact .inr (.inr (.inr ⟨_, .star, by simp [Simple.isType], rfl⟩))
    | type letters =>
        refine .inr (.inr (.inr ⟨_, .type letters, ?_⟩))
        simp only [take, addType] at h
        split at h
        · cases h
        · next hplace =>
            cases h
            refine ⟨fun _ => ?_, rfl⟩
            unfold isInside
            split
            · next left compound hinside => exact absurd hinside (hplace left compound)
            · rfl
    | id letters =>
        cases h
        exact .inr (.inr (.inr ⟨_, .id letters, by simp [Simple.isType], rfl⟩))
    | ofClass letters =>
        cases h
        exact .inr (.inr (.inr ⟨_, .ofClass letters, by simp [Simple.isType], rfl⟩))
    | «attribute» content =>
        obtain ⟨test, htest, rfl⟩ := Outcome.map_eq_ok_iff.1 h
        exact .inr (.inr (.inr ⟨_, .condition htest, by simp [Simple.isType], rfl⟩))
    | pseudo name argument =>
        cases argument with
        | none =>
            obtain ⟨s, hs, rfl⟩ := Outcome.map_eq_ok_iff.1 h
            have hs : Reads p nested position (.pseudo name none) s := .of_plainPseudo hs
            exact .inr (.inr (.inr ⟨s, hs, by cases hs <;> simp [Simple.isType], rfl⟩))
        | some argument =>
            obtain ⟨s, hs, rfl⟩ := Outcome.map_eq_ok_iff.1 h
            have hs : Reads p nested position (.pseudo name (some argument)) s :=
              .of_pseudoCall hs
            exact .inr (.inr (.inr ⟨s, hs, by cases hs <;> simp [Simple.isType], rfl⟩))
    | stray c => cases h
    | fault e => cases h
  · rintro (⟨hlexeme, rfl⟩ | ⟨hlexeme, done, hdone, rfl⟩ | ⟨c, via, hlexeme, h⟩ |
      ⟨s, hs, htype, rfl⟩)
    · cases hlexeme
      rfl
    · cases hlexeme
      exact Outcome.map_eq_ok_iff.2 ⟨done, hdone, rfl⟩
    · cases hlexeme
      exact h
    · cases hs with
      | star => rfl
      | type letters =>
          have hplace := htype rfl
          obtain ⟨done, place⟩ := progress
          cases place with
          | inside => cases hplace
          | _ => rfl
      | id letters => rfl
      | ofClass letters => rfl
      | condition h => exact Outcome.map_eq_ok_iff.2 ⟨_, h, rfl⟩
      | scope => rfl
      | structural test => rfl
      | has h => simp [take, Parser.pseudoCall, h, Except.map]
      | not h => simp [take, Parser.pseudoCall, h, Except.map]
      | contains extent opening h => simp [take, Parser.pseudoCall, h, Except.map]
      | finds extent opening hne h => simp [take, Parser.pseudoCall, hne, h, Except.map]
      | ordinal kind opening h => simp [take, Parser.pseudoCall, h, Except.map]

end Progress

/-- **From one token to the next**: what holds where a text ends, and before a token if it
holds after it, holds of every text. -/
@[elab_as_elim]
theorem Token.induction {motive : Bool → Nat → List Char → Prop}
    (nil : ∀ inCompound position, motive inCompound position [])
    (cons : ∀ inCompound position c rest,
      motive (Token.take inCompound position c rest).1.isSimple
        (position + (rest.length + 1 - (Token.take inCompound position c rest).2.length))
        (Token.take inCompound position c rest).2 →
      motive inCompound position (c :: rest))
    (inCompound : Bool) (position : Nat) (cs : List Char) : motive inCompound position cs :=
  Token.scan.induct motive nil cons inCompound position cs

namespace Parser

/-- Reads on from a state that has been reached. -/
def resume (p : Parser) (nested : List Char → Nat → Outcome SelectorList)
    (inCompound : Bool) (position : Nat) (progress : Progress) (cs : List Char) :
    Outcome SelectorList := do
  let progress ← (Token.scan inCompound position cs).foldlM (Progress.take p nested) progress
  progress.finish (position + cs.length)

/-- Reading a text is reading on from nothing. -/
theorem parseWithin_succ (depth : Nat) (cs : List Char) (base : Nat) :
    p.parseWithin (depth + 1) cs base =
      p.resume (p.parseWithin depth) false base .start cs :=
  rfl

/-- At the end of the text the reading is finished. -/
theorem resume_nil (inCompound : Bool) (position : Nat) (progress : Progress) :
    p.resume nested inCompound position progress [] = progress.finish position := by
  rw [resume, Token.scan]
  rfl

/-- A token is taken, and the reading goes on after it. -/
theorem resume_cons (inCompound : Bool) (position : Nat) (progress : Progress) (c : Char)
    (cs : List Char) :
    p.resume nested inCompound position progress (c :: cs) =
      (progress.take p nested ⟨position, (Token.take inCompound position c cs).1⟩ >>=
        fun progress => p.resume nested (Token.take inCompound position c cs).1.isSimple
          (position + (cs.length + 1 - (Token.take inCompound position c cs).2.length))
          progress (Token.take inCompound position c cs).2) := by
  have hle := Token.length_take_le inCompound position c cs
  have hstop : position + (c :: cs).length =
      position + (cs.length + 1 - (Token.take inCompound position c cs).2.length) +
        (Token.take inCompound position c cs).2.length := by
    rw [List.length_cons]
    omega
  rw [resume, Token.scan, List.foldlM_cons, bind_assoc, hstop]
  rfl

/-- **Invariants of steps** hold at the end of a run. -/
theorem resume_preserves {P : Bool → Progress → Prop}
    (step : ∀ inCompound position progress c cs progress', P inCompound progress →
      progress.take p nested ⟨position, (Token.take inCompound position c cs).1⟩ = .ok progress' →
      P (Token.take inCompound position c cs).1.isSimple progress')
    {inCompound : Bool} {position : Nat} {progress : Progress} {cs : List Char}
    {l : SelectorList} (hstart : P inCompound progress)
    (h : p.resume nested inCompound position progress cs = .ok l) :
    ∃ inCompound' position' progress', P inCompound' progress' ∧
      progress'.finish position' = .ok l := by
  induction inCompound, position, cs using Token.induction generalizing progress with
  | nil inCompound position =>
      rw [resume_nil] at h
      exact ⟨inCompound, position, progress, hstart, h⟩
  | cons inCompound position c cs ih =>
      rw [resume_cons] at h
      obtain ⟨progress', htake, hrest⟩ := Outcome.bind_eq_ok_iff.1 h
      exact ih (step _ _ _ _ _ _ hstart htake) hrest

end Parser

end MarkupQuery
