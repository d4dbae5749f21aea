import MarkupQuery.Proofs.Building
import MarkupQuery.Proofs.Likeness
import MarkupQuery.Proofs.Merging

/-!
# Trees built from what merges alike

Descriptions that merge alike build trees with the same elements at the same places, if
only elements are counted.  Whatever a matcher does at a node of the one tree it does at
the node in that place of the other, as long as no names of attributes differ in case only.

* `Tree.Holds` — what is described below a node;
* `Tree.MergeAlike` — two trees whose documents hold what merges alike;
* `Tree.Paired` — nodes at the same place, child by child;
* `MergeAlike.alike` — the trees look alike along their pairs;
* `Tree.Counterparts`, `MergeAlike.counterparts_iff` — pairs by document order.
-/

namespace MarkupQuery

open Description

/-! ### Members at the same index -/

section Lists

variable {α β : Type} {l₁ : List α} {l₂ : List β} {a : α} {b b' : β} {R : α → β → Prop}

/-- Members of two lists at the same index. -/
def SameIndex (l₁ : List α) (l₂ : List β) (a : α) (b : β) : Prop :=
  ∃ i : Nat, l₁[i]? = some a ∧ l₂[i]? = some b

namespace SameIndex

theorem symm (h : SameIndex l₁ l₂ a b) : SameIndex l₂ l₁ b a := by
  obtain ⟨i, ha, hb⟩ := h
  exact ⟨i, hb, ha⟩

/-- In a list without repetition a member has one index. -/
theorem right_unique (hl : l₁.Nodup) (h : SameIndex l₁ l₂ a b) (h' : SameIndex l₁ l₂ a b') :
    b = b' := by
  obtain ⟨i, ha, hb⟩ := h
  obtain ⟨j, ha', hb'⟩ := h'
  have hi : i < l₁.length := (List.getElem?_eq_some_iff.1 ha).1
  obtain rfl : i = j := (List.getElem?_inj hi hl).1 (ha.trans ha'.symm)
  exact Option.some.inj (hb.symm.trans hb')

theorem of_forall₂ (h : List.Forall₂ R l₁ l₂) (hab : SameIndex l₁ l₂ a b) : R a b := by
  obtain ⟨i, ha, hb⟩ := hab
  obtain ⟨hi, rfl⟩ := List.getElem?_eq_some_iff.1 ha
  obtain ⟨hj, rfl⟩ := List.getElem?_eq_some_iff.1 hb
  exact h.get hi hj

theorem forall₂ (h : l₁.length = l₂.length) : List.Forall₂ (SameIndex l₁ l₂) l₁ l₂ :=
  List.forall₂_of_length_eq_of_get h fun i hi hj =>
    ⟨i, List.getElem?_eq_getElem hi, List.getElem?_eq_getElem hj⟩

theorem exists_of_mem (h : l₁.length = l₂.length) (ha : a ∈ l₁) : ∃ b, SameIndex l₁ l₂ a b := by
  obtain ⟨i, hi, rfl⟩ := List.getElem_of_mem ha
  exact ⟨l₂[i], i, List.getElem?_eq_getElem hi, List.getElem?_eq_getElem (h ▸ hi)⟩

end SameIndex

/-- Members related to related members are related. -/
theorem forall₂_comp {γ : Type} {S : β → γ → Prop} {T : α → γ → Prop} {l₃ : List γ}
    (hT : ∀ a b c, R a b → S b c → T a c) (h : List.Forall₂ R l₁ l₂)
    (h' : List.Forall₂ S l₂ l₃) : List.Forall₂ T l₁ l₃ := by
  induction h generalizing l₃ with
  | nil =>
      cases h'
      exact .nil
  | cons hab _ ih =>
      cases h' with
      | cons hbc hrest => exact .cons (hT _ _ _ hab hbc) (ih hrest)

end Lists

namespace Tree

variable {t t₁ t₂ : Tree} {x x₁ x₂ y₁ y₂ : NodeId} {ds ds₁ ds₂ : List Description}

/-! ### What a node holds -/

/-- A list describes what is below a node. -/
def Holds (t : Tree) (x : NodeId) (ds : List Description) : Prop :=
  ∃ id : Nat, t.children x = tops id ds ∧ LaidAll t id ds

/-- A list describes what is below a node child by child. -/
theorem Holds.children (h : t.Holds x ds) :
    List.Forall₂ (fun c d => t.kind? c = some d.kind ∧ t.Holds c d.children)
      (t.children x) ds := by
  obtain ⟨id, hchildren, hlaid⟩ := h
  rw [hchildren]
  clear hchildren
  induction ds generalizing id with
  | nil => exact .nil
  | cons d rest ih =>
      obtain ⟨hfirst, hrest⟩ := hlaid
      obtain ⟨hkind, hbelow, hlaid⟩ := laid_iff.1 hfirst
      exact .cons ⟨hkind, id + 1, hbelow, hlaid⟩ (ih _ hrest)

theorem isElement_eq {d : Description} (h : t.kind? x = some d.kind) :
    t.isElement x = d.isElement := by
  cases d <;> simp [isElement, element?, h, kind, Description.isElement, tag?]

theorem ownPieces_eq {k : NodeKind} (h : t.kind? x = some k) (preserve : Bool) :
    t.ownPieces preserve x = k.ownPieces preserve := by
  cases k <;> simp [ownPieces, h, NodeKind.ownPieces]

theorem isNothing_eq {k : NodeKind} (h : t.kind? x = some k) : t.isNothing x = k.isNothing := by
  cases k <;> simp [isNothing, h, NodeKind.isNothing]

theorem Holds.elementChildren (h : t.Holds x ds) :
    List.Forall₂ (fun c d => t.kind? c = some d.kind ∧ t.Holds c d.children)
      (t.elementChildren x) (ds.filter Description.isElement) :=
  forall₂_filter h.children fun _ _ _ hd => (isElement_eq hd.1).symm

/-- Nothing is below a child that is no element. -/
theorem Holds.children_eq_nil (h : t.Holds x ds) {c : NodeId} (hc : c ∈ t.children x)
    (hleaf : t.isElement c = false) : t.children c = [] := by
  obtain ⟨d, hd⟩ := SameIndex.exists_of_mem h.children.length_eq hc
  have hholds := SameIndex.of_forall₂ h.children hd
  obtain ⟨hkind, id, hchildren, -⟩ := hholds
  rw [isElement_eq hkind] at hleaf
  cases d with
  | element tag attributes children => cases hleaf
  | _ => exact hchildren

theorem Holds.flatMap_ownPieces (h : t.Holds x ds) (preserve : Bool) :
    ds.flatMap (·.kind.ownPieces preserve) = (t.children x).flatMap (t.ownPieces preserve) := by
  rw [List.flatMap_def, List.flatMap_def]
  exact congrArg List.flatten
    (map_eq_of_forall₂ h.children fun _ _ _ hd => (ownPieces_eq hd.1 preserve).symm)

theorem Holds.all_isNothing (h : t.Holds x ds) :
    ds.all (·.kind.isNothing) = (t.children x).all t.isNothing := by
  have hmap := map_eq_of_forall₂ h.children fun _ _ _ hd => (isNothing_eq hd.1).symm
  simpa [Function.comp_def] using congrArg (List.all · id) hmap

/-! ### Nodes that hold the same -/

/-- Two nodes hold what merges alike. -/
def HoldAlike (t₁ t₂ : Tree) (x₁ x₂ : NodeId) : Prop :=
  ∃ ds₁ ds₂, t₁.Holds x₁ ds₁ ∧ t₂.Holds x₂ ds₂ ∧
    List.Forall₂ Same (mergedAll ds₁) (mergedAll ds₂)

namespace HoldAlike

/-- **The elements in them** are the same, one by one, and hold the same again. -/
theorem elementChildren (h : t₁.HoldAlike t₂ x₁ x₂) :
    List.Forall₂ (fun c₁ c₂ => t₁.SameKind t₂ c₁ c₂ ∧ t₁.HoldAlike t₂ c₁ c₂)
      (t₁.elementChildren x₁) (t₂.elementChildren x₂) := by
  obtain ⟨ds₁, ds₂, h₁, h₂, hmerged⟩ := h
  have hdescribed := forall₂_isElement_of_mergedAll hmerged
  have hfirst := forall₂_comp (fun c₁ d₁ d₂ hc hd =>
    (⟨⟨d₁.kind, hc.1, hd.1⟩, d₁.children, hc.2, hd.2⟩ :
      (∃ k, t₁.kind? c₁ = some k ∧ k.Same d₂.kind) ∧
        ∃ ds, t₁.Holds c₁ ds ∧ List.Forall₂ Same (mergedAll ds) (mergedAll d₂.children)))
    h₁.elementChildren hdescribed
  refine forall₂_comp (fun c₁ d₂ c₂ hc hd => ?_) hfirst (List.Forall₂.flip h₂.elementChildren)
  obtain ⟨⟨k, hk, hkind⟩, ds, hds, hsame⟩ := hc
  refine ⟨?_, ds, d₂.children, hds, hd.2, hsame⟩
  rw [SameKind, hk, hd.1]
  exact .some hkind

theorem ownPieces (h : t₁.HoldAlike t₂ x₁ x₂) (preserve : Bool) :
    (t₂.children x₂).flatMap (t₂.ownPieces preserve) =
      (t₁.children x₁).flatMap (t₁.ownPieces preserve) := by
  obtain ⟨ds₁, ds₂, h₁, h₂, hmerged⟩ := h
  have hsame := map_eq_of_forall₂ hmerged fun _ _ _ hd => hd.kind.ownPieces_eq preserve
  rw [← h₁.flatMap_ownPieces, ← h₂.flatMap_ownPieces, ← flatMap_ownPieces_mergedAll,
    ← flatMap_ownPieces_mergedAll preserve ds₁, List.flatMap_def, List.flatMap_def, hsame]

theorem all_isNothing (h : t₁.HoldAlike t₂ x₁ x₂) :
    (t₂.children x₂).all t₂.isNothing = (t₁.children x₁).all t₁.isNothing := by
  obtain ⟨ds₁, ds₂, h₁, h₂, hmerged⟩ := h
  have hsame := map_eq_of_forall₂ hmerged fun _ _ _ hd => hd.kind.isNothing_eq
  rw [← h₁.all_isNothing, ← h₂.all_isNothing, ← all_isNothing_mergedAll,
    ← all_isNothing_mergedAll ds₁]
  simpa [Function.comp_def] using congrArg (List.all · id) hsame

end HoldAlike

/-! ### Pairs -/

/-- Nodes at the same place of two trees, if only elements count. -/
inductive Paired (t₁ t₂ : Tree) : NodeId → NodeId → Prop
  | root : Paired t₁ t₂ root root
  | child {p₁ p₂ x₁ x₂ : NodeId} (hp : Paired t₁ t₂ p₁ p₂)
      (hx : SameIndex (t₁.elementChildren p₁) (t₂.elementChildren p₂) x₁ x₂) :
      Paired t₁ t₂ x₁ x₂

/-- An element child is a child, and an element. -/
theorem mem_elementChildren {p c : NodeId} :
    c ∈ t.elementChildren p ↔ c ∈ t.children p ∧ t.isElement c = true :=
  List.mem_filter

namespace Paired

theorem symm (h : t₁.Paired t₂ x₁ x₂) : t₂.Paired t₁ x₂ x₁ := by
  induction h with
  | root => exact .root
  | child _ hx ih => exact .child ih hx.symm

/-- A pair of documents, or of elements whose parents are a pair. -/
theorem root_or_child (h₁ : t₁.Forest) (h₂ : t₂.Forest) (hx : t₁.Paired t₂ x₁ x₂) :
    (x₁ = Tree.root ∧ x₂ = Tree.root) ∨
      ∃ p₁ p₂, t₁.Paired t₂ p₁ p₂ ∧ t₁.parent? x₁ = some p₁ ∧ t₂.parent? x₂ = some p₂ ∧
        t₁.isElement x₁ = true ∧ t₂.isElement x₂ = true ∧
        SameIndex (t₁.elementChildren p₁) (t₂.elementChildren p₂) x₁ x₂ := by
  cases hx with
  | root => exact .inl ⟨rfl, rfl⟩
  | @child p₁ p₂ _ _ hp hx =>
      obtain ⟨i, hx₁, hx₂⟩ := hx
      obtain ⟨hc₁, he₁⟩ := mem_elementChildren.1 (List.mem_of_getElem? hx₁)
      obtain ⟨hc₂, he₂⟩ := mem_elementChildren.1 (List.mem_of_getElem? hx₂)
      exact .inr ⟨p₁, p₂, hp, h₁.mem_children.1 hc₁, h₂.mem_children.1 hc₂, he₁, he₂, i, hx₁, hx₂⟩

/-- A node is in one pair at most. -/
theorem right_unique (h₁ : t₁.Forest) (h₂ : t₂.Forest) (hx : t₁.Paired t₂ x₁ x₂)
    (hy : t₁.Paired t₂ x₁ y₂) : x₂ = y₂ := by
  induction hx generalizing y₂ with
  | root =>
      rcases hy.root_or_child h₁ h₂ with ⟨-, rfl⟩ | ⟨p₁, p₂, -, hparent, -⟩
      · rfl
      · rw [h₁.parent?_root] at hparent
        cases hparent
  | @child p₁ p₂ x₁ x₂ hp hx ih =>
      obtain ⟨i, hx₁, hx₂⟩ := hx
      have hparent := h₁.mem_children.1 (mem_elementChildren.1 (List.mem_of_getElem? hx₁)).1
      rcases hy.root_or_child h₁ h₂ with ⟨rfl, -⟩ | ⟨q₁, q₂, hq, hparent', -, -, -, hindex⟩
      · rw [h₁.parent?_root] at hparent
        cases hparent
      · obtain rfl : p₁ = q₁ := Option.some.inj (hparent.symm.trans hparent')
        obtain rfl : p₂ = q₂ := ih hq
        have hnodup : (t₁.elementChildren p₁).Nodup := (h₁.nodup_children p₁).filter _
        exact SameIndex.right_unique hnodup ⟨i, hx₁, hx₂⟩ hindex

theorem eq_iff (h₁ : t₁.Forest) (h₂ : t₂.Forest) (hx : t₁.Paired t₂ x₁ x₂)
    (hy : t₁.Paired t₂ y₁ y₂) : x₁ = y₁ ↔ x₂ = y₂ := by
  constructor
  · rintro rfl
    exact hx.right_unique h₁ h₂ hy
  · rintro rfl
    exact hx.symm.right_unique h₂ h₁ hy.symm

end Paired

/-- Trees whose documents hold what merges alike. -/
structure MergeAlike (t₁ t₂ : Tree) : Prop where
  forest₁ : t₁.Forest
  forest₂ : t₂.Forest
  document₁ : t₁.kind? root = some .document
  document₂ : t₂.kind? root = some .document
  holdAlike : t₁.HoldAlike t₂ root root

/-- **Trees that are built** from what merges alike. -/
theorem mergeAlike_of_build {log₁ log₂ : WarningLog} (h₁ : (Tree.build log₁ ds₁).2 = .ok t₁)
    (h₂ : (Tree.build log₂ ds₂).2 = .ok t₂)
    (h : List.Forall₂ Same (mergedAll ds₁) (mergedAll ds₂)) : t₁.MergeAlike t₂ := by
  obtain ⟨-, hdocument₁, hchildren₁, hlaid₁⟩ := laid_of_build h₁
  obtain ⟨-, hdocument₂, hchildren₂, hlaid₂⟩ := laid_of_build h₂
  exact ⟨(Reachable.build log₁ ds₁ h₁).forest, (Reachable.build log₂ ds₂ h₂).forest, hdocument₁,
    hdocument₂, ds₁, ds₂, ⟨1, hchildren₁, hlaid₁⟩, ⟨1, hchildren₂, hlaid₂⟩, h⟩

namespace MergeAlike

/-- **Pairs are the same** and hold the same. -/
theorem of_paired (h : t₁.MergeAlike t₂) (hx : t₁.Paired t₂ x₁ x₂) :
    t₁.SameKind t₂ x₁ x₂ ∧ t₁.HoldAlike t₂ x₁ x₂ := by
  induction hx with
  | root => exact ⟨.of_eq (h.document₂.trans h.document₁.symm), h.holdAlike⟩
  | child _ hx ih =>
      have hsame := SameIndex.of_forall₂ ih.2.elementChildren hx
      exact hsame

theorem element? (h : t₁.MergeAlike t₂) (hx : t₁.Paired t₂ x₁ x₂) :
    Option.Rel Element.Same (t₁.element? x₁) (t₂.element? x₂) :=
  (h.of_paired hx).1.element?

/-- The elements in pairs are pairs. -/
theorem elementChildren (h : t₁.MergeAlike t₂) (hx : t₁.Paired t₂ x₁ x₂) :
    List.Forall₂ (t₁.Paired t₂) (t₁.elementChildren x₁) (t₂.elementChildren x₂) :=
  (SameIndex.forall₂ (h.of_paired hx).2.elementChildren.length_eq).imp fun _ _ hc => .child hx hc

/-! ### The walks from pairs -/

end MergeAlike

/-- The elements before an element among the children of its parent. -/
theorem elementsBefore_eq {p : NodeId} (hp : t.parent? x = some p) (hx : t.isElement x = true) :
    t.elementsBefore x = (t.elementChildren p).takeWhile (· != x) := by
  have hstop : ∀ y, (!t.isElement y || y != x) = (y != x) := by
    intro y
    by_cases hy : y = x <;> simp [hy, hx]
  simp only [elementsBefore, hp, elementChildren, List.takeWhile_filter, hstop]

/-- The walk down over elements alone, where only elements have children. -/
theorem filter_preorder {ids : List NodeId} (depth : Nat)
    (hleaf : ∀ c ∈ ids, t.isElement c = false → t.children c = []) :
    (t.preorder (depth + 1) ids).filter t.isElement =
      (ids.filter t.isElement).flatMap fun c =>
        c :: (t.preorder depth (t.children c)).filter t.isElement := by
  induction ids with
  | nil => rfl
  | cons c rest ih =>
      obtain ⟨hc, hrest⟩ := List.forall_mem_cons.1 hleaf
      have hwalk : t.preorder (depth + 1) (c :: rest) =
          c :: (t.preorder depth (t.children c) ++ t.preorder (depth + 1) rest) := rfl
      rw [hwalk, List.filter_cons, List.filter_append, ih hrest, List.filter_cons]
      cases he : t.isElement c with
      | true => rfl
      | false =>
          have hnil : t.preorder depth (t.children c) = [] := by
            rw [hc he]
            cases depth <;> rfl
          rw [hnil]
          rfl

namespace MergeAlike

/-- **The walks back** from a pair meet pairs of elements. -/
theorem elementsBefore (h : t₁.MergeAlike t₂) (hx : t₁.Paired t₂ x₁ x₂) :
    List.Forall₂ (t₁.Paired t₂) (t₁.elementsBefore x₁) (t₂.elementsBefore x₂) := by
  rcases hx.root_or_child h.forest₁ h.forest₂ with ⟨rfl, rfl⟩ | ⟨p₁, p₂, hp, hp₁, hp₂, he₁, he₂, -⟩
  · simp [Tree.elementsBefore, h.forest₁.parent?_root, h.forest₂.parent?_root]
  · rw [elementsBefore_eq hp₁ he₁, elementsBefore_eq hp₂ he₂]
    refine forall₂_takeWhile (h.elementChildren hp) fun y₁ _ y₂ hy => ?_
    rw [Bool.eq_iff_iff, bne_iff_ne, bne_iff_ne, ne_eq, ne_eq, hy.eq_iff h.forest₁ h.forest₂ hx]

/-- **The walks down** from a pair meet pairs of elements. -/
theorem preorder (h : t₁.MergeAlike t₂) (depth : Nat) (hx : t₁.Paired t₂ x₁ x₂) :
    List.Forall₂ (t₁.Paired t₂) ((t₁.preorder depth (t₁.children x₁)).filter t₁.isElement)
      ((t₂.preorder depth (t₂.children x₂)).filter t₂.isElement) := by
  induction depth generalizing x₁ x₂ with
  | zero => exact .nil
  | succ depth ih =>
      obtain ⟨ds₁, ds₂, h₁, h₂, -⟩ := (h.of_paired hx).2
      rw [filter_preorder depth fun c hc => h₁.children_eq_nil hc,
        filter_preorder depth fun c hc => h₂.children_eq_nil hc]
      exact List.rel_flatMap (h.elementChildren hx) fun c₁ c₂ hc => .cons hc (ih hc)

theorem elementsBelow (h : t₁.MergeAlike t₂) (hx : t₁.Paired t₂ x₁ x₂) :
    List.Forall₂ (t₁.Paired t₂) ((t₁.descendants x₁).filter t₁.isElement)
      ((t₂.descendants x₂).filter t₂.isElement) := by
  have hwalk := h.preorder (max t₁.size t₂.size) hx
  rw [h.forest₁.preorder_eq_descendants (Nat.le_max_left _ _),
    h.forest₂.preorder_eq_descendants (Nat.le_max_right _ _)] at hwalk
  exact hwalk

/-- **The trees look alike** along their pairs, unless names there differ in case only. -/
theorem alike (h : t₁.MergeAlike t₂) (hnames : t₁.NamesApart) :
    t₁.Alike t₂ (t₁.Paired t₂) where
  forest₁ := h.forest₁
  forest₂ := h.forest₂
  eq_iff hx hy := hx.eq_iff h.forest₁ h.forest₂ hy
  element? {x₁ _} hx := (h.of_paired hx).1.readAlike (hnames x₁)
  parent? := by
    intro s₁ s₂ x₁ x₂ p₁ _ hx _ hparent
    rcases hx.root_or_child h.forest₁ h.forest₂ with ⟨rfl, -⟩ | ⟨q₁, q₂, hq, hq₁, hq₂, -⟩
    · rw [h.forest₁.parent?_root] at hparent
      cases hparent
    · obtain rfl : q₁ = p₁ := Option.some.inj (hq₁.symm.trans hparent)
      exact ⟨q₂, hq₂, hq⟩
  elementsBefore _ hx _ := h.elementsBefore hx
  elementsBelow := h.elementsBelow

end MergeAlike

/-! ### Counterparts -/

/-- The elements of a tree, in document order. -/
def elements (t : Tree) : List NodeId := (t.descendants root).filter t.isElement

/-- The documents of two trees, or elements with the same index in document order. -/
def Counterparts (t₁ t₂ : Tree) : NodeId → NodeId → Prop :=
  SameIndex (root :: t₁.elements) (root :: t₂.elements)

namespace MergeAlike

theorem elements (h : t₁.MergeAlike t₂) :
    List.Forall₂ (t₁.Paired t₂) t₁.elements t₂.elements :=
  h.elementsBelow .root

theorem within_root (h : t₁.MergeAlike t₂) (hx : t₁.Paired t₂ x₁ x₂) : t₁.Within x₁ root := by
  induction hx with
  | root => exact .refl
  | child _ hx ih =>
      obtain ⟨i, hx₁, -⟩ := hx
      have hchild := (mem_elementChildren.1 (List.mem_of_getElem? hx₁)).1
      exact .head (h.forest₁.mem_children.1 hchild) ih

/-- A node that is in a pair is the document or one of its elements. -/
theorem mem_elements (h : t₁.MergeAlike t₂) (hx : t₁.Paired t₂ x₁ x₂) :
    x₁ ∈ root :: t₁.elements := by
  rcases hx.root_or_child h.forest₁ h.forest₂ with ⟨rfl, -⟩ | ⟨p₁, p₂, -, hparent, -, he, -⟩
  · exact List.mem_cons_self
  · have hne : x₁ ≠ root := by
      rintro rfl
      rw [h.forest₁.parent?_root] at hparent
      cases hparent
    have hbelow := h.forest₁.mem_descendants.2 (below_of_within (h.within_root hx) hne)
    exact List.mem_cons_of_mem _ (List.mem_filter.2 ⟨hbelow, he⟩)

/-- **Pairs are counterparts**, and there are no others. -/
theorem counterparts_iff (h : t₁.MergeAlike t₂) :
    t₁.Counterparts t₂ x₁ x₂ ↔ t₁.Paired t₂ x₁ x₂ := by
  have hall : List.Forall₂ (t₁.Paired t₂) (root :: t₁.elements) (root :: t₂.elements) :=
    .cons .root h.elements
  constructor
  · exact SameIndex.of_forall₂ hall
  · intro hx
    obtain ⟨y₂, hy⟩ := SameIndex.exists_of_mem hall.length_eq (h.mem_elements hx)
    have hpair : t₁.Paired t₂ x₁ y₂ := SameIndex.of_forall₂ hall hy
    obtain rfl : y₂ = x₂ := hpair.right_unique h.forest₁ h.forest₂ hx
    exact hy

end MergeAlike

end Tree

end MarkupQuery
