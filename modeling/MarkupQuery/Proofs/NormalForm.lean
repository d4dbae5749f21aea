import MarkupQuery.Proofs.Conditions
import MarkupQuery.Proofs.Openings

/-!
# What the parser produces

Every selector that is read is in a normal form: names are trimmed and in lower case,
values are in the form that is compared, patterns are accepted by the engine, a type
name comes first in its compound, and nothing is empty that could not be written.

* `Simple.Normal`, `Complex.Normal` — the normal form, at every depth;
* `Parser.normal_of_parse` — what is read is normal.
-/

namespace MarkupQuery

open Delimited

/-! ### The normal form -/

/-- A name that can follow a sigil. -/
structure IsIdentifier (name : String) : Prop where
  nonempty : name ≠ ""
  letters : ∀ c ∈ name.toList, isNameChar c = true

/-- A type name, with a colon after its namespace. -/
structure IsTypeName (name : String) : Prop where
  nonempty : name ≠ ""
  letters : ∀ c ∈ name.toList, isNameChar c = true ∨ c = ':'
  lower : Text.asciiLowered name = name
  head : ∀ c ∈ name.toList.head?, Text.isBlank c = false

mutual

/-- A simple selector as it is read. -/
def Simple.Normal (p : Parser) : Simple → Prop
  | .type name => IsTypeName name
  | .universal | .scope | .structural _ => True
  | .id name | .ofClass name => IsIdentifier name
  | .attribute test => test.Normal p
  | .has list | .not list => list ≠ [] ∧ Complex.AllNormal p list
  | .contains _ text => text ≠ "" ∧ Text.trimmed text = text ∧ Text.lowered text = text
  | .finds _ pattern =>
    Text.trim pattern.source.toList ≠ [] ∧
      Openings.closes .round false pattern.source.toList = true ∧
      pattern.case = p.config.patterns ∧ p.Accepts pattern
  | .ordinal o => o.bound < UInt64.size

/-- Simple selectors as they are read. -/
def Simple.AllNormal (p : Parser) : List Simple → Prop
  | [] => True
  | s :: rest => s.Normal p ∧ Simple.AllNormal p rest

/-- A chain as it is read: in each compound there is something, and a type name comes
first. -/
def Complex.Normal (p : Parser) : Complex → Prop
  | .only compound =>
    compound ≠ [] ∧ (∀ s ∈ compound.tail, s.isType = false) ∧ Simple.AllNormal p compound
  | .linked compound _ left =>
    (compound ≠ [] ∧ (∀ s ∈ compound.tail, s.isType = false) ∧ Simple.AllNormal p compound) ∧
      left.Normal p

/-- Chains as they are read. -/
def Complex.AllNormal (p : Parser) : List Complex → Prop
  | [] => True
  | c :: rest => c.Normal p ∧ Complex.AllNormal p rest

end

variable {p : Parser} {nested : List Char → Nat → Outcome SelectorList}

theorem Simple.allNormal_iff {compound : Compound} :
    Simple.AllNormal p compound ↔ ∀ s ∈ compound, s.Normal p := by
  induction compound with
  | nil => simp [Simple.AllNormal]
  | cons s rest ih => simp [Simple.AllNormal, ih]

theorem Complex.allNormal_iff {l : SelectorList} :
    Complex.AllNormal p l ↔ ∀ c ∈ l, c.Normal p := by
  induction l with
  | nil => simp [Complex.AllNormal]
  | cons c rest ih => simp [Complex.AllNormal, ih]

/-- A compound as it is read. -/
def Compound.Normal (p : Parser) (compound : Compound) : Prop :=
  compound ≠ [] ∧ (∀ s ∈ compound.tail, s.isType = false) ∧ Simple.AllNormal p compound

theorem Complex.normal_extend_iff {left : Option (Combinator × Complex)} {compound : Compound} :
    (Complex.extend left compound).Normal p ↔
      Compound.Normal p compound ∧ ∀ via chain, left = some (via, chain) → chain.Normal p := by
  cases left with
  | none => simp [Complex.extend, Complex.Normal, Compound.Normal]
  | some left =>
      obtain ⟨via, chain⟩ := left
      simp [Complex.extend, Complex.Normal, Compound.Normal]

/-- A compound of one simple selector. -/
theorem Compound.normal_singleton {s : Simple} : Compound.Normal p [s] ↔ s.Normal p := by
  simp [Compound.Normal, Simple.AllNormal]

/-- A compound stays normal with a simple selector after it that is no type name. -/
theorem Compound.Normal.append {compound : Compound} (h : Compound.Normal p compound)
    {s : Simple} (hs : s.Normal p) (htype : s.isType = false) :
    Compound.Normal p (compound ++ [s]) := by
  obtain ⟨hne, hfirst, hall⟩ := h
  refine ⟨by simp, ?_, ?_⟩
  · intro t ht
    rw [List.tail_append_of_ne_nil hne, List.mem_append, List.mem_singleton] at ht
    rcases ht with ht | rfl
    · exact hfirst t ht
    · exact htype
  · rw [Simple.allNormal_iff] at hall ⊢
    intro t ht
    rw [List.mem_append, List.mem_singleton] at ht
    rcases ht with ht | rfl
    · exact hall t ht
    · exact hs

/-! ### Tokens -/

/-- What a token can hold.  `inCompound` tells that a simple selector stands just
before it. -/
def Lexeme.Sound (inCompound : Bool) : Lexeme → Prop
  | .type letters =>
    letters ≠ [] ∧ (∀ c ∈ letters, isTypeChar c = true) ∧
      (inCompound = false → ∀ c ∈ letters.head?, Text.isBlank c = false)
  | .id letters | .ofClass letters => letters ≠ [] ∧ ∀ c ∈ letters, isNameChar c = true
  | .pseudo name (some (_, argument)) =>
    Openings.closes .round (name == .has || name == .not) argument = true
  | _ => True

namespace Token

theorem sound_named {inCompound : Bool} {position : Nat} {sigil : Char}
    {make : List Char → Lexeme}
    (hmake : ∀ letters, letters ≠ [] → (∀ c ∈ letters, isNameChar c = true) →
      (make letters).Sound inCompound) (rest : List Char) :
    (named position sigil make rest).1.Sound inCompound := by
  unfold named
  dsimp only
  split
  · trivial
  · next hne => exact hmake _ hne fun c hc => List.mem_takeWhile_imp hc

theorem sound_bracketed {inCompound : Bool} {position : Nat} {rest : List Char} :
    (bracketed position rest).1.Sound inCompound := by
  unfold bracketed
  split <;> trivial

theorem sound_argument {inCompound : Bool} {name : PseudoName} {opening : Nat}
    {rest : List Char} : (argument name opening rest).1.Sound inCompound := by
  unfold argument
  split
  · next h => exact (Bracket.slice_eq_ok_iff.1 h).2
  · trivial

theorem sound_pseudoClass {inCompound : Bool} {position : Nat} {rest : List Char} :
    (pseudoClass position rest).1.Sound inCompound := by
  unfold pseudoClass
  dsimp only
  split
  · trivial
  split
  · trivial
  split
  · exact sound_argument
  · trivial

/-- A token holds what its kind can hold. -/
theorem sound_take (inCompound : Bool) (position : Nat) (c : Char) (rest : List Char) :
    (take inCompound position c rest).1.Sound inCompound := by
  unfold take
  split
  · trivial
  next hblank =>
  split
  · trivial
  split
  · trivial
  split
  · apply sound_named
    exact fun letters hne hall => ⟨hne, hall⟩
  split
  · apply sound_named
    exact fun letters hne hall => ⟨hne, hall⟩
  split
  · exact sound_bracketed
  split
  · exact sound_pseudoClass
  split
  · next htype =>
      refine ⟨by simp, ?_, ?_⟩
      · intro d hd
        rcases List.mem_cons.1 hd with rfl | hd
        · exact htype
        · exact List.mem_takeWhile_imp hd
      · rintro rfl d hd
        cases hd
        simpa using hblank
  split <;> trivial

end Token

/-! ### What tokens are read as -/

/-- Lower-casing an ASCII capital gives a letter of names too. -/
theorem isNameChar_toLower (c : Char) : isNameChar c.toLower = isNameChar c := by
  rcases Text.toLower_cases c with h | ⟨hlow, hhigh, h⟩
  · rw [h]
  · have hletters : ∀ k : Fin 26, isNameChar (Char.ofNat (0x41 + k)) = true ∧
        isNameChar (Char.ofNat (0x61 + k)) = true := by
      decide
    obtain ⟨hcapital, hsmall⟩ := hletters ⟨c.toNat - 0x41, by omega⟩
    have hc : 0x41 + (c.toNat - 0x41) = c.toNat := by omega
    have hlower : 0x61 + (c.toNat - 0x41) = c.toLower.toNat := by omega
    simp only [hc, Char.ofNat_toNat] at hcapital
    simp only [hlower, Char.ofNat_toNat] at hsmall
    rw [hcapital, hsmall]

/-- The letters of a type name, with the bar for a colon and the capitals in lower
case. -/
theorem isTypeName_ofList {letters : List Char} (hne : letters ≠ [])
    (hletters : ∀ c ∈ letters, isTypeChar c = true)
    (hhead : ∀ c ∈ letters.head?, Text.isBlank c = false) :
    IsTypeName (String.ofList (letters.map fun c => if c = '|' then ':' else c.toLower)) where
  nonempty := by simpa using hne
  letters := by
    intro d hd
    rw [String.toList_ofList, List.mem_map] at hd
    obtain ⟨c, hc, rfl⟩ := hd
    have htype := hletters c hc
    by_cases hbar : c = '|'
    · simp [hbar]
    · rw [if_neg hbar, isNameChar_toLower]
      exact .inl (by simpa [isTypeChar, hbar] using htype)
  lower := by
    simp only [Text.asciiLowered, String.toList_ofList, List.map_map]
    congr 2
    funext c
    show Char.toLower (if c = '|' then ':' else c.toLower) =
      if c = '|' then ':' else c.toLower
    split
    · decide
    · exact Text.toLower_toLower c
  head := by
    intro d hd
    rw [String.toList_ofList, List.head?_map] at hd
    obtain ⟨c, hc, rfl⟩ := Option.map_eq_some_iff.1 hd
    by_cases hbar : c = '|'
    · simp [hbar]
      decide
    · rw [if_neg hbar, Text.isBlank_toLower, hhead c hc]

/-- A number that is read fits in 64 bits. -/
theorem Parser.index?_lt {cs : List Char} {n : Nat} (h : Parser.index? cs = some n) :
    n < UInt64.size := by
  simp only [Parser.index?, Option.ite_none_right_eq_some] at h
  obtain ⟨⟨-, -, hlt⟩, heq⟩ := h
  rwa [← Option.some.inj heq]

/-- What a nested reading has to give. -/
def YieldsNormal (p : Parser) (nested : List Char → Nat → Outcome SelectorList) : Prop :=
  ∀ cs base list, nested cs base = .ok list → list ≠ [] ∧ Complex.AllNormal p list

/-- **What a token is read as** is normal, where a type name is allowed. -/
theorem Reads.normal {inCompound : Bool} {position : Nat} {lexeme : Lexeme} {s : Simple}
    (h : Reads p nested position lexeme s) (hnested : YieldsNormal p nested)
    (hsound : lexeme.Sound inCompound) (htype : s.isType = true → inCompound = false) :
    s.Normal p := by
  cases h with
  | star => trivial
  | type letters =>
      obtain ⟨hne, hletters, hhead⟩ := hsound
      exact isTypeName_ofList hne hletters (hhead (htype rfl))
  | id letters => exact ⟨by simpa using hsound.1, by simpa using hsound.2⟩
  | ofClass letters => exact ⟨by simpa using hsound.1, by simpa using hsound.2⟩
  | condition h => exact Parser.normal_of_attributeTest h
  | scope => trivial
  | structural test => trivial
  | has h => exact hnested _ _ _ h
  | not h => exact hnested _ _ _ h
  | contains extent opening hne =>
      refine ⟨by simpa using hne, ?_, ?_⟩
      · rw [Text.trimmed_eq_self_iff, String.toList_ofList]
        exact Text.trim_lower_of_trim (Text.trim_trim _)
      · rw [Text.lowered, String.toList_ofList, Text.lower_lower]
  | finds extent opening hne h =>
      obtain ⟨rfl, haccepts⟩ := Parser.pattern_eq_ok_iff.1 h
      exact ⟨by simpa using hne, by rwa [String.toList_ofList], rfl, haccepts⟩
  | ordinal kind opening h => exact Parser.index?_lt h

/-! ### Every run keeps the normal form -/

/-- Whether what is read so far is in normal form. -/
def Place.Normal (p : Parser) : Place → Prop
  | .opening | .leading _ => True
  | .pending _ _ left => left.Normal p
  | .inside left compound => (Complex.extend left compound).Normal p
  | .behind chain => chain.Normal p

/-- The invariant of reading: everything read is normal, and the last token was a
simple selector only where a compound is being read. -/
structure Progress.Normal (p : Parser) (inCompound : Bool) (progress : Progress) : Prop where
  done : Complex.AllNormal p progress.done
  place : progress.place.Normal p
  inside : inCompound = true → progress.isInside = true

namespace Progress

/-- Adding a simple selector keeps the invariant. -/
theorem Normal.addSimple {inCompound inCompound' : Bool} {progress : Progress}
    (h : progress.Normal p inCompound) {s : Simple} (hs : s.Normal p)
    (htype : s.isType = true → progress.isInside = false) :
    (progress.addSimple s).Normal p inCompound' := by
  obtain ⟨done, place⟩ := progress
  have hplace := h.place
  have hsingle : Compound.Normal p [s] := Compound.normal_singleton.2 hs
  cases place with
  | opening =>
      exact ⟨h.done, Complex.normal_extend_iff.2 ⟨hsingle, by simp⟩, fun _ => rfl⟩
  | leading via =>
      refine ⟨h.done, Complex.normal_extend_iff.2 ⟨hsingle, ?_⟩, fun _ => rfl⟩
      rintro _ _ ⟨⟩
      exact Compound.normal_singleton.2 (show Simple.Normal p .scope from trivial)
  | pending c via left =>
      refine ⟨h.done, Complex.normal_extend_iff.2 ⟨hsingle, ?_⟩, fun _ => rfl⟩
      rintro _ _ ⟨⟩
      exact hplace
  | inside left compound =>
      obtain ⟨hcompound, hleft⟩ := Complex.normal_extend_iff.1 hplace
      have hfalse : s.isType = false := by
        cases htrue : s.isType with
        | false => rfl
        | true => cases htype htrue
      exact ⟨h.done, Complex.normal_extend_iff.2 ⟨hcompound.append hs hfalse, hleft⟩,
        fun _ => rfl⟩
  | behind chain =>
      refine ⟨h.done, Complex.normal_extend_iff.2 ⟨hsingle, ?_⟩, fun _ => rfl⟩
      rintro _ _ ⟨⟩
      exact hplace

/-- The alternatives are normal when the last one ends. -/
theorem Normal.close {inCompound : Bool} {progress : Progress} {position : Nat}
    {l : SelectorList} (h : progress.Normal p inCompound)
    (hclose : progress.close position = .ok l) :
    l ≠ [] ∧ Complex.AllNormal p l := by
  have hsnoc : ∀ c : Complex, c.Normal p →
      progress.done ++ [c] ≠ [] ∧ Complex.AllNormal p (progress.done ++ [c]) := by
    intro c hc
    refine ⟨by simp, Complex.allNormal_iff.2 fun d hd => ?_⟩
    rcases List.mem_append.1 hd with hd | hd
    · exact Complex.allNormal_iff.1 h.done d hd
    · rw [List.mem_singleton.1 hd]
      exact hc
  obtain ⟨done, place⟩ := progress
  cases place with
  | opening => cases hclose
  | leading via => cases hclose
  | pending c via left => cases hclose
  | inside left compound =>
      cases hclose
      exact hsnoc _ h.place
  | behind chain =>
      cases hclose
      exact hsnoc _ h.place

/-- **Every step keeps the invariant.** -/
theorem Normal.take {inCompound : Bool} {progress progress' : Progress} {token : Token}
    (h : progress.Normal p inCompound) (hnested : YieldsNormal p nested)
    (hsound : token.lexeme.Sound inCompound)
    (htake : progress.take p nested token = .ok progress') :
    progress'.Normal p token.lexeme.isSimple := by
  obtain ⟨position, lexeme⟩ := token
  obtain ⟨done, place⟩ := progress
  rcases take_eq_ok_iff.1 htake with ⟨rfl, rfl⟩ | ⟨rfl, done', hclose, rfl⟩ |
    ⟨c, via, rfl, hcombinator⟩ | ⟨s, hs, htype, rfl⟩
  · refine ⟨?_, ?_, by simp [Lexeme.isSimple]⟩
    · cases place <;> exact h.done
    · cases place <;> exact h.place
  · exact ⟨(h.close hclose).2, trivial, by simp [Lexeme.isSimple]⟩
  · refine ⟨?_, ?_, by simp [Lexeme.isSimple]⟩
    · cases place <;> cases hcombinator <;> exact h.done
    · cases place <;> cases hcombinator
      · trivial
      · exact h.place
      · exact h.place
  · refine h.addSimple (hs.normal hnested hsound fun hs => ?_) htype
    by_contra hin
    have hinside := h.inside (by simpa using hin)
    rw [htype hs] at hinside
    cases hinside

end Progress

namespace Parser

theorem resume_normal (hnested : YieldsNormal p nested) {position : Nat} {cs : List Char}
    {l : SelectorList} (h : p.resume nested false position .start cs = .ok l) :
    l ≠ [] ∧ Complex.AllNormal p l := by
  have hstart : Progress.start.Normal p false := ⟨trivial, trivial, by simp⟩
  obtain ⟨inCompound, stop, progress, hprogress, hfinish⟩ :=
    resume_preserves (P := fun inCompound progress => progress.Normal p inCompound)
      (fun _ _ _ _ _ _ hprogress htake => hprogress.take hnested (Token.sound_take _ _ _ _) htake)
      hstart h
  unfold Progress.finish at hfinish
  split at hfinish
  · cases hfinish
  · exact hprogress.close hfinish

/-- Nested readings yield selectors in normal form. -/
theorem yieldsNormal_parseWithin (depth : Nat) : YieldsNormal p (p.parseWithin depth) := by
  induction depth with
  | zero =>
      intro cs base list h
      cases h
  | succ depth ih =>
      intro cs base list h
      exact resume_normal ih h

/-- **What is read is in normal form.** -/
theorem normal_of_parse {text : String} {l : SelectorList} (h : p.parse text = .ok l) :
    l ≠ [] ∧ Complex.AllNormal p l :=
  yieldsNormal_parseWithin _ _ _ _ h

end Parser

end MarkupQuery
