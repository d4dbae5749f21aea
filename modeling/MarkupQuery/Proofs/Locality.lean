import MarkupQuery.Proofs.Likeness

/-!
# Matching stays within its scope

What is above the scope root, beside it or elsewhere in the tree does not matter for a
selection, if no condition of the selector asks for it.  Such conditions are those on the
place of an element among its siblings, which the scope root has, too, and those on its
text, which depends on the blocks before it and on the tags around it.  What is the same in
two trees may still have its attributes in different orders, so the names of an element must
not differ in case only.

* `Tree.SameBelow` — two trees hold the same from a node on down;
* `Simple.isConfined` — a simple selector that asks for nothing else;
* `Reachable.select_of_sameBelow` — a scope is matched alike wherever it stands;
* `Tree.select_ne_of_spellings` — but not with a name in two spellings.
-/

namespace MarkupQuery

namespace Tree

variable {t₁ t₂ : Tree} {s x y : NodeId}

/-- The children of a node lie where it does. -/
theorem Forest.within_of_mem_children (h : t₁.Forest) (hx : t₁.Within x s)
    (hy : y ∈ t₁.children x) : t₁.Within y s :=
  .head (h.mem_children.1 hy) hx

/-- Two trees hold the same from a node on down: the nodes within it are the same, with
the same children.  Attributes may stand in different orders. -/
structure SameBelow (t₁ t₂ : Tree) (s : NodeId) : Prop where
  sameKind : ∀ x, t₁.Within x s → t₁.SameKind t₂ x x
  children : ∀ x, t₁.Within x s → t₂.children x = t₁.children x

namespace SameBelow

/-- The walk down from a node meets all that has to be compared. -/
theorem of_forall (h₁ : t₁.Forest) (hsame : ∀ x ∈ s :: t₁.descendants s,
    t₁.SameKind t₂ x x ∧ t₂.children x = t₁.children x) : t₁.SameBelow t₂ s where
  sameKind x hx := (hsame x (h₁.within_iff_mem.1 hx)).1
  children x hx := (hsame x (h₁.within_iff_mem.1 hx)).2

/-- Walks down meet the same nodes. -/
theorem preorder (h : t₁.SameBelow t₂ s) (h₁ : t₁.Forest) (depth : Nat) {ids : List NodeId}
    (hids : ∀ x ∈ ids, t₁.Within x s) : t₂.preorder depth ids = t₁.preorder depth ids := by
  induction depth generalizing ids with
  | zero => rfl
  | succ depth ih =>
      refine List.flatMap_congr fun x hx => ?_
      rw [h.children x (hids x hx), ih fun c hc => h₁.within_of_mem_children (hids x hx) hc]

theorem descendants (h : t₁.SameBelow t₂ s) (h₁ : t₁.Forest) (h₂ : t₂.Forest)
    (hx : t₁.Within x s) : t₂.descendants x = t₁.descendants x := by
  -- both walks go as deep as the larger tree needs
  rw [← h₂.preorder_eq_descendants (Nat.le_max_right t₁.size t₂.size), h.children x hx,
    h.preorder h₁ _ fun c hc => h₁.within_of_mem_children hx hc,
    h₁.preorder_eq_descendants (Nat.le_max_left _ _)]

theorem within_iff (h : t₁.SameBelow t₂ s) (h₁ : t₁.Forest) (h₂ : t₂.Forest) :
    t₂.Within x s ↔ t₁.Within x s := by
  rw [h₁.within_iff_mem, h₂.within_iff_mem, h.descendants h₁ h₂ .refl]

/-- Below the node, parents are the same. -/
theorem parent? (h : t₁.SameBelow t₂ s) (h₁ : t₁.Forest) (h₂ : t₂.Forest)
    (hx : t₁.Below x s) : t₂.parent? x = t₁.parent? x := by
  obtain ⟨p, hlink, hp⟩ := Relation.TransGen.head'_iff.1 hx
  have hlink : t₁.parent? x = some p := hlink
  rw [hlink, ← h₂.mem_children, h.children p hp, h₁.mem_children, hlink]

theorem elementsBefore (h : t₁.SameBelow t₂ s) (h₁ : t₁.Forest) (h₂ : t₂.Forest)
    (hx : t₁.Below x s) : t₂.elementsBefore x = t₁.elementsBefore x := by
  obtain ⟨p, hlink, hp⟩ := Relation.TransGen.head'_iff.1 hx
  have hlink : t₁.parent? x = some p := hlink
  simp only [Tree.elementsBefore, h.parent? h₁ h₂ hx, hlink, h.children p hp]
  refine List.filter_congr fun y hy => (h.sameKind y ?_).isElement_eq
  exact h₁.within_of_mem_children hp (List.takeWhile_subset _ hy)

/-- **The trees look alike** within the node, unless names there differ in case only. -/
theorem alike (h : t₁.SameBelow t₂ s) (h₁ : t₁.Forest) (h₂ : t₂.Forest)
    (hnames : ∀ x e, t₁.Within x s → t₁.element? x = some e → e.attributes.NamesApart) :
    t₁.Alike t₂ fun x₁ x₂ => x₁ = x₂ ∧ t₁.Within x₁ s where
  forest₁ := h₁
  forest₂ := h₂
  eq_iff := by
    intro x₁ x₂ y₁ y₂ hx hy
    rw [hx.1, hy.1]
  element? := by
    intro x₁ x₂ hx
    obtain ⟨rfl, hx⟩ := hx
    exact (h.sameKind x₁ hx).readAlike fun e he => hnames x₁ e hx he
  parent? := by
    intro s₁ s₂ x₁ x₂ p hs hx hbelow hp
    obtain ⟨rfl, hx⟩ := hx
    have hup : t₁.Within p s := (hbelow.parent_within hp).trans hs.2
    refine ⟨p, ?_, rfl, hup⟩
    rw [h.parent? h₁ h₂ (.head' hp hup), hp]
  elementsBefore := by
    intro s₁ s₂ x₁ x₂ hs hx hbelow
    obtain ⟨rfl, hx⟩ := hx
    rw [h.elementsBefore h₁ h₂ (hbelow.trans_left hs.2), List.forall₂_same]
    intro y hy
    exact ⟨rfl, (hbelow.of_mem_elementsBefore h₁ hy).within.trans hs.2⟩
  elementsBelow := by
    intro x₁ x₂ hx
    obtain ⟨rfl, hx⟩ := hx
    have hbelow : ∀ y ∈ t₁.descendants x₁, t₁.Within y s := by
      intro y hy
      exact (h₁.mem_descendants.1 hy).within.trans hx
    rw [h.descendants h₁ h₂ hx,
      List.filter_congr fun y hy => (h.sameKind y (hbelow y hy)).isElement_eq,
      List.forall₂_same]
    intro y hy
    exact ⟨rfl, hbelow y (List.mem_filter.1 hy).1⟩

end SameBelow

end Tree

open MarkupQuery.Tree

variable {t₁ t₂ : Tree} {scope : NodeId} {list : SelectorList}

/-- Whether a simple selector, apart from those in its argument, asks for nothing but
what an element is, holds, and is related to by combinators. -/
def Simple.isConfined : Simple → Bool
  | .structural test => test = .empty
  | .contains _ _ | .finds _ _ => false
  | _ => true

/-- Confined simple selectors read the same within the node. -/
theorem Simple.keptAlong_of_isConfined (h : t₁.SameBelow t₂ scope) (h₁ : t₁.Forest)
    {s : Simple} (hs : s.isConfined = true) :
    s.KeptAlong t₁ t₂ fun x₁ x₂ => x₁ = x₂ ∧ t₁.Within x₁ scope := by
  cases s with
  | structural test =>
      obtain rfl : test = .empty := by simpa [isConfined] using hs
      intro x₁ x₂ e₁ e₂ hx _ _
      obtain ⟨rfl, hx⟩ := hx
      have hnothing : ∀ c ∈ t₁.children x₁, t₂.isNothing c = t₁.isNothing c :=
        fun c hc => (h.sameKind c (h₁.within_of_mem_children hx hc)).isNothing_eq
      rw [StructuralTest.holds, StructuralTest.holds, h.children x₁ hx, Bool.eq_iff_iff,
        List.all_eq_true, List.all_eq_true]
      exact forall₂_congr fun c hc => by rw [hnothing c hc]
  | contains extent text => cases hs
  | finds extent pattern => cases hs
  | _ => trivial

namespace Tree

/-- **Matching stays within its scope.**  If two trees hold the same from the scope root
on down, and no element there has two attributes whose names differ in case only, then
selectors whose simple selectors are confined, at every depth, select the same elements
below it in the same order, and accept the same nodes. -/
theorem Reachable.select_of_sameBelow (h₁ : Reachable t₁) (h₂ : Reachable t₂)
    (hsame : t₁.SameBelow t₂ scope)
    (hnames : ∀ x e, t₁.Within x scope → t₁.element? x = some e → e.attributes.NamesApart)
    (engine : PatternEngine) (hlist : ∀ s ∈ Complex.allOccurring list, s.isConfined = true) :
    t₂.select engine scope list = t₁.select engine scope list ∧
      ∀ x, t₂.accepts engine scope list x = t₁.accepts engine scope list x := by
  have halike := hsame.alike h₁.forest h₂.forest hnames
  have hkept : ∀ s ∈ Complex.allOccurring list,
      s.KeptAlong t₁ t₂ fun x₁ x₂ => x₁ = x₂ ∧ t₁.Within x₁ scope :=
    fun s hs => Simple.keptAlong_of_isConfined hsame h₁.forest (hlist s hs)
  have hscope : scope = scope ∧ t₁.Within scope scope := ⟨rfl, .refl⟩
  constructor
  · rw [Selection.mk.injEq]
    have hids := (halike.select engine hscope hkept).imp fun _ _ h => h.1
    rw [List.forall₂_eq_eq_eq] at hids
    exact hids.symm
  · intro x
    by_cases hx : t₁.Within x scope
    · exact halike.accepts engine hscope hkept ⟨rfl, hx⟩ hx
    · have hx₂ : ¬ t₂.Within x scope := fun hw => hx ((hsame.within_iff h₁.forest h₂.forest).1 hw)
      rw [h₁.forest.accepts_of_not_within hx, h₂.forest.accepts_of_not_within hx₂]

/-- A division with a paragraph and what is bold is selected from alike in a document of
its own and behind another paragraph in a section, where its attributes stand in another
order. -/
theorem select_of_sameBelow_in_section :
    ∃ t₁ t₂ : Tree, Reachable t₁ ∧ Reachable t₂ ∧ t₁.SameBelow t₂ 1 ∧ t₁.NamesApart ∧
      t₁.parent? 1 = some 0 ∧ t₂.parent? 1 = some 4 ∧ t₂.precedingElements 1 = [5] ∧
      t₁.element? 1 ≠ t₂.element? 1 ∧
      (t₂.select ⟨fun _ => .error ""⟩ 1
        [.linked [.type "b", .ordinal ⟨.eq, 0⟩] .subsequentSibling
          (.linked [.type "p"] .child (.only [.id "main", .not
            [.linked [.type "div"] .subsequentSibling (.only [.type "p"])]]))]).ids = [3] := by
  have h₁ := Reachable.empty.appendDescription .empty root
    (.element "div" (.ofList [("Id", "main"), ("lang", "de")])
      [.element "p" .empty [], .element "b" .empty []]) fun _ _ => by decide
  have h₂ := ((((Reachable.empty.alloc
    (.element ⟨"div", .ofList [("lang", "de"), ("Id", "main")]⟩)).appendElement 1 ⟨"p", .empty⟩
    fun _ _ => by decide).appendElement 1 ⟨"b", .empty⟩ fun _ _ => by decide).appendElement root
      ⟨"section", .empty⟩ fun _ _ => by decide).appendElement 4 ⟨"p", .empty⟩ fun _ _ => by decide
  have hout : ¬ Within _ 4 1 := fun hw => absurd (h₂.forest.within_iff_mem.1 hw) (by decide)
  have h₃ := h₂.appendChild (by decide) (by decide) (by decide) (by decide) hout
  refine ⟨_, _, h₁, h₃, ?_⟩
  suffices hsame : SameBelow _ _ 1 ∧ NamesApart _ by
    refine ⟨hsame.1, hsame.2, by decide +kernel, by decide +kernel, by decide +kernel,
      by decide +kernel, ?_⟩
    rw [(Reachable.select_of_sameBelow h₁ h₃ hsame.1 (fun x e _ he => hsame.2 x e he) _
      (by decide)).1]
    decide +kernel
  exact ⟨SameBelow.of_forall h₁.forest (by decide +kernel), by decide +kernel⟩

/-- With an identifier in two spellings it depends on the order of the attributes which of
the two counts. -/
theorem select_ne_of_spellings :
    let list : SelectorList := [.only [.id "a"]]
    ∃ t₁ t₂ : Tree, Reachable t₁ ∧ Reachable t₂ ∧ t₁.SameBelow t₂ root ∧
      (∀ s ∈ Complex.allOccurring list, s.isConfined = true) ∧
      t₂.select ⟨fun _ => .error ""⟩ root list ≠ t₁.select ⟨fun _ => .error ""⟩ root list := by
  intro list
  have h₁ := Reachable.empty.appendElement root ⟨"p", .ofList [("ID", "a"), ("Id", "b")]⟩
    fun _ _ => by decide
  have h₂ := Reachable.empty.appendElement root ⟨"p", .ofList [("Id", "b"), ("ID", "a")]⟩
    fun _ _ => by decide
  refine ⟨_, _, h₁, h₂, ?_, by decide, by decide +kernel⟩
  exact SameBelow.of_forall h₁.forest (by decide +kernel)

end Tree

end MarkupQuery
