import MarkupQuery.Selector.Matching
import Mathlib.Data.List.Nodup

/-!
# Attributes in any order

The order in which attributes are gone through is their own.  It matters where a name is
looked up that no attribute has as it is spelt: then the first attribute counts whose name
differs from it in case only.  So elements with the same attributes may answer differently,
unless no two names differ in case only.

* `Attributes.NamesApart`, `Tree.NamesApart` — no two names of an element differ in case only;
* `Attributes.find?_eq_of_namesApart` — the look-up of an attribute then ignores case;
* `Attributes.Same`, `Element.Same`, `NodeKind.Same` — the same, whatever the order;
* `Element.ReadAlike` — two elements answer alike whatever is asked of either;
* `Element.Same.readAlike` — what is the same answers alike if its names are apart.
-/

namespace MarkupQuery

open MarkupQuery.Text

/-! ### Looking up attributes -/

/-- Without repeated keys an entry is found by its key. -/
theorem find?_key {α β : Type} [BEq β] [LawfulBEq β] (key : α → β) {l : List α}
    (h : (l.map key).Nodup) {a : α} (ha : a ∈ l) :
    l.find? (fun b => key b == key a) = some a := by
  induction l with
  | nil => cases ha
  | cons b rest ih =>
      obtain ⟨hnew, hrest⟩ := List.nodup_cons.1 h
      rcases List.mem_cons.1 ha with rfl | ha
      · exact List.find?_cons_of_pos (beq_self_eq_true _)
      · have hne : key b ≠ key a := fun heq => hnew (heq ▸ List.mem_map_of_mem ha)
        rw [List.find?_cons_of_neg (by simpa using hne)]
        exact ih hrest ha

/-- Without repeated keys the same entry is found by its key in any order. -/
theorem find?_key_of_perm {α β : Type} [BEq β] [LawfulBEq β] (key : α → β) {l l' : List α}
    (hperm : l.Perm l') (h : (l.map key).Nodup) (k : β) :
    l'.find? (fun b => key b == k) = l.find? (fun b => key b == k) := by
  cases hfound : l.find? (fun b => key b == k) with
  | some a =>
      have hmem : a ∈ l' := hperm.mem_iff.1 (List.mem_of_find?_eq_some hfound)
      have hkey : key a = k := by simpa using List.find?_some hfound
      rw [← hkey]
      exact find?_key key ((hperm.map key).nodup_iff.1 h) hmem
  | none =>
      rw [List.find?_eq_none] at hfound ⊢
      exact fun b hb => hfound b (hperm.mem_iff.2 hb)

namespace Attributes

/-- No two names of the attributes differ in case only. -/
def NamesApart (a : Attributes) : Prop :=
  (a.entries.map fun entry => asciiLowered entry.1).Nodup

instance (a : Attributes) : Decidable a.NamesApart := List.nodupDecidable _

/-- **Looking up an attribute** ignores case if no two names differ in case only. -/
theorem find?_eq_of_namesApart {a : Attributes} (h : a.NamesApart) (name : String) :
    a.find? name =
      (a.entries.find? fun entry => sameAsciiCaseless entry.1 name).map (·.2) := by
  unfold find?
  split
  · next entry hexact =>
      -- No other entry has this name in any case, so the second look-up stops here, too.
      have hmem : entry ∈ a.entries := List.mem_of_find?_eq_some hexact
      have hname : entry.1 = name := by simpa using List.find?_some hexact
      have hfound := find?_key (fun entry : String × String => asciiLowered entry.1) h hmem
      simp only [sameAsciiCaseless, ← hname, hfound, Option.map_some]
  · rfl

/-- The same names with the same values, in whatever order. -/
def Same (a b : Attributes) : Prop := a.entries.Perm b.entries

instance (a b : Attributes) : Decidable (a.Same b) :=
  inferInstanceAs (Decidable (a.entries.Perm b.entries))

variable {a b : Attributes}

theorem Same.namesApart (h : a.Same b) (ha : a.NamesApart) : b.NamesApart :=
  (List.Perm.map _ h).nodup_iff.1 ha

/-- **The order does not matter** for looking up an attribute if no two names differ in case
only. -/
theorem Same.find?_eq (h : a.Same b) (ha : a.NamesApart) (name : String) :
    b.find? name = a.find? name := by
  have hfound := find?_key_of_perm (fun entry : String × String => asciiLowered entry.1) h ha
    (asciiLowered name)
  rw [find?_eq_of_namesApart ha, find?_eq_of_namesApart (h.namesApart ha)]
  exact congrArg (Option.map (·.2)) hfound

end Attributes

/-! ### Elements -/

/-- The same tag name and the same attributes, in whatever order. -/
structure Element.Same (e₁ e₂ : Element) : Prop where
  tagName : e₂.tagName = e₁.tagName
  attributes : e₁.attributes.Same e₂.attributes

/-- Two elements answer alike whatever is asked of either. -/
structure Element.ReadAlike (e₁ e₂ : Element) : Prop where
  tagName : e₂.tagName = e₁.tagName
  attribute? : ∀ name, e₂.attribute? name = e₁.attribute? name
  mem_entries : ∀ entry, entry ∈ e₂.attributes.entries ↔ entry ∈ e₁.attributes.entries

namespace Element

variable {e₁ e₂ : Element}

instance (e₁ e₂ : Element) : Decidable (e₁.Same e₂) :=
  decidable_of_iff (e₂.tagName = e₁.tagName ∧ e₁.attributes.Same e₂.attributes)
    ⟨fun h => ⟨h.1, h.2⟩, fun h => ⟨h.tagName, h.attributes⟩⟩

/-- **Elements that are the same answer alike** if no two names differ in case only. -/
theorem Same.readAlike (h : e₁.Same e₂) (hnames : e₁.attributes.NamesApart) :
    e₁.ReadAlike e₂ where
  tagName := h.tagName
  attribute? := h.attributes.find?_eq hnames
  mem_entries _ := h.attributes.mem_iff.symm

theorem Same.isNamed_eq (h : e₁.Same e₂) (name : String) :
    e₂.isNamed name = e₁.isNamed name := by
  rw [isNamed, isNamed, h.tagName]

theorem Same.preservesWhitespace_eq (h : e₁.Same e₂) :
    e₂.preservesWhitespace = e₁.preservesWhitespace := by
  rw [preservesWhitespace, preservesWhitespace, tag?, tag?, h.tagName]

theorem ReadAlike.id?_eq (h : e₁.ReadAlike e₂) : e₂.id? = e₁.id? := h.attribute? "id"

theorem ReadAlike.hasClass_eq (h : e₁.ReadAlike e₂) (name : String) :
    e₂.hasClass name = e₁.hasClass name := by
  rw [hasClass, hasClass, classWords, classWords, h.attribute?]

/-- **A condition on attributes** holds of both or of neither. -/
theorem ReadAlike.holds_eq (h : e₁.ReadAlike e₂) (engine : PatternEngine) (test : AttributeTest) :
    test.holds engine e₂ = test.holds engine e₁ := by
  cases test with
  | present name => rw [AttributeTest.holds, AttributeTest.holds, hasAttribute, hasAttribute,
      h.attribute?]
  | nameStart start =>
      rw [AttributeTest.holds, AttributeTest.holds, Bool.eq_iff_iff, List.any_eq_true,
        List.any_eq_true]
      exact exists_congr fun entry => and_congr_left fun _ => h.mem_entries entry
  | value op name expected => rw [AttributeTest.holds, AttributeTest.holds, h.attribute?]
  | pattern name sought => rw [AttributeTest.holds, AttributeTest.holds, h.attribute?]

end Element

/-! ### Nodes -/

/-- Nodes of the same kind, with the same content; of elements the attributes may stand in
different orders. -/
inductive NodeKind.Same : NodeKind → NodeKind → Prop
  | refl (k : NodeKind) : Same k k
  | element {e₁ e₂ : Element} (h : e₁.Same e₂) : Same (.element e₁) (.element e₂)

namespace Tree

variable {t t₁ t₂ : Tree} {x₁ x₂ : NodeId}

/-- No element has two attributes whose names differ in case only. -/
def NamesApart (t : Tree) : Prop :=
  ∀ x e, t.element? x = some e → e.attributes.NamesApart

/-- Only the ids that name a node have to be looked at. -/
theorem namesApart_iff : t.NamesApart ↔
    ∀ x < t.size, ∀ e ∈ t.element? x, e.attributes.NamesApart := by
  refine ⟨fun h x _ e he => h x e he, fun h x e he => h x ?_ e he⟩
  refine Nat.lt_of_not_le fun hle => ?_
  rw [element?, kind?, get?, Array.getElem?_eq_none hle] at he
  cases he

instance (t : Tree) : Decidable t.NamesApart := decidable_of_iff _ namesApart_iff.symm

/-- Two ids name nodes of the same kind, with the same content, or neither names a node. -/
def SameKind (t₁ t₂ : Tree) (x₁ x₂ : NodeId) : Prop :=
  Option.Rel NodeKind.Same (t₁.kind? x₁) (t₂.kind? x₂)

namespace SameKind

theorem of_eq (h : t₂.kind? x₂ = t₁.kind? x₁) : t₁.SameKind t₂ x₁ x₂ := by
  rw [SameKind, h]
  cases t₁.kind? x₁ with
  | none => exact .none
  | some k => exact .some (.refl k)

/-- Both are the same element, or neither is one. -/
theorem element? (h : t₁.SameKind t₂ x₁ x₂) :
    Option.Rel Element.Same (t₁.element? x₁) (t₂.element? x₂) := by
  unfold SameKind at h
  unfold Tree.element?
  generalize t₁.kind? x₁ = k₁, t₂.kind? x₂ = k₂ at h
  cases h with
  | none => exact .none
  | @some k _ h =>
      cases h with
      | element h => exact .some h
      | refl =>
          cases k with
          | element e => exact .some ⟨rfl, List.Perm.refl _⟩
          | _ => exact .none

/-- **Elements that are the same answer alike** if no two names of theirs differ in case
only. -/
theorem readAlike (h : t₁.SameKind t₂ x₁ x₂)
    (hnames : ∀ e, t₁.element? x₁ = some e → e.attributes.NamesApart) :
    Option.Rel Element.ReadAlike (t₁.element? x₁) (t₂.element? x₂) := by
  have he := h.element?
  generalize t₁.element? x₁ = o₁, t₂.element? x₂ = o₂ at he hnames
  cases he with
  | none => exact .none
  | some hsame => exact .some (hsame.readAlike (hnames _ rfl))

theorem isElement_eq (h : t₁.SameKind t₂ x₁ x₂) : t₂.isElement x₂ = t₁.isElement x₁ := by
  have he := h.element?
  unfold isElement
  generalize t₁.element? x₁ = o₁, t₂.element? x₂ = o₂ at he
  cases he <;> rfl

theorem isNothing_eq (h : t₁.SameKind t₂ x₁ x₂) : t₂.isNothing x₂ = t₁.isNothing x₁ := by
  unfold SameKind at h
  unfold isNothing
  generalize t₁.kind? x₁ = k₁, t₂.kind? x₂ = k₂ at h
  cases h with
  | none => rfl
  | some h => cases h <;> rfl

end SameKind

theorem element?_eq_some_iff {x : NodeId} {e : Element} :
    t.element? x = some e ↔ t.kind? x = some (.element e) := by
  unfold element?
  split <;> simp_all

/-- Only elements may be the same without being equal. -/
theorem sameKind_iff : t₁.SameKind t₂ x₁ x₂ ↔ t₂.kind? x₂ = t₁.kind? x₁ ∨
    ∃ e₁ ∈ t₁.element? x₁, ∃ e₂ ∈ t₂.element? x₂, e₁.Same e₂ := by
  constructor
  · intro h
    unfold SameKind at h
    unfold element?
    generalize t₁.kind? x₁ = k₁, t₂.kind? x₂ = k₂ at h
    cases h with
    | none => exact .inl rfl
    | some h =>
        cases h with
        | refl => exact .inl rfl
        | element h => exact .inr ⟨_, rfl, _, rfl, h⟩
  · rintro (h | ⟨e₁, h₁, e₂, h₂, h⟩)
    · exact .of_eq h
    · rw [SameKind, element?_eq_some_iff.1 h₁, element?_eq_some_iff.1 h₂]
      exact .some (.element h)

instance : Decidable (t₁.SameKind t₂ x₁ x₂) := decidable_of_iff _ sameKind_iff.symm

end Tree

end MarkupQuery
