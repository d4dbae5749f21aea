import MarkupQuery.Proofs.Positions

/-!
# Explicit and loose combinators

A combinator that names its step refines the loose one of the same direction: `>` refines
the blank, and `+` refines `~`.  An ordinal could spoil this, for what a combinator relates
decides who competes.  But a combinator that leads up leads from all siblings to the same
nodes: if a node is related at all, every element before it competes, as it does without
the rest of the chain.

* `Matcher.satisfies_congr` — a compound asks about the competitors before a node only;
* `Complex.accepts_linked` — when the rest of a chain does not decide who competes;
* `Forest.select_linked`, `Forest.mem_select_linked` — it then filters what the subject selects;
* `Reachable.select_refined` — what the explicit combinators select.
-/

namespace MarkupQuery

open MarkupQuery.Tree

variable {m : Matcher} {x y : NodeId} {via : Combinator} {compound : Compound}

/-- Whether a combinator leads up, to nodes that a candidate has in common with its
siblings. -/
def Combinator.isUpward : Combinator → Bool
  | .descendant | .child => true
  | .nextSibling | .subsequentSibling => false

/-! ### Who competes -/

namespace Matcher

variable {competes competes' left : NodeId → Bool}

/-- Only the elements before a node compete with it. -/
theorem rank_congr (h : ∀ y ∈ m.tree.precedingElements x, competes y = competes' y) :
    m.rank competes x = m.rank competes' x := by
  rw [rank, rank, List.countP_congr fun y hy => by rw [h y hy]]

/-- Conditions in order ask about the competitors before a node only. -/
theorem satisfies_congr (conditions : List Condition)
    (h : ∀ y ∈ m.tree.precedingElements x, competes y = competes' y) :
    m.satisfies competes conditions x = m.satisfies competes' conditions x := by
  induction conditions generalizing competes competes' with
  | nil => rfl
  | cons c rest ih =>
      cases c with
      | holds p => rw [satisfies, satisfies, ih fun y hy => by rw [h y hy]]
      | ordinal o => rw [satisfies, satisfies, rank_congr h, ih h]

/-- From nodes with the same parent a combinator leads up to the same nodes. -/
theorem reached_of_isUpward (hvia : via.isUpward = true)
    (hparent : m.tree.parent? y = m.tree.parent? x) : m.reached via y = m.reached via x := by
  have hancestors : m.tree.ancestors y = m.tree.ancestors x := by
    unfold ancestors
    cases m.tree.size with
    | zero => rfl
    | succ fuel => rw [follow, follow, hparent]
  cases via with
  | descendant => rw [reached, reached, scopedAncestors, scopedAncestors, hancestors]
  | child => rw [reached, reached, hparent]
  | nextSibling | subsequentSibling => cases hvia

/-- **All siblings compete** with a node that a combinator relates to something above. -/
theorem satisfies_of_isUpward (h : m.tree.Forest) (hvia : via.isUpward = true)
    (hx : m.tree.Within x m.scope) (hrelates : m.relates via left x = true)
    (conditions : List Condition) :
    m.satisfies (m.relates via left) conditions x = m.satisfies (fun _ => true) conditions x := by
  obtain ⟨hne, hreached⟩ := Bool.and_eq_true_iff.1 hrelates
  have hbelow : m.tree.Below x m.scope := below_of_within hx (bne_iff_ne.1 hne)
  refine satisfies_congr conditions fun y hy => ?_
  rw [h.precedingElements_eq, List.mem_reverse] at hy
  have hne' : y ≠ m.scope := h.ne_of_below (hbelow.of_mem_elementsBefore h hy)
  rw [relates, reached_of_isUpward hvia (h.parent?_of_mem_elementsBefore hy), hreached,
    bne_iff_ne.2 hne', Bool.true_and]

end Matcher

/-- **The rest of a chain** does not decide who competes if its combinator leads up, or if
the subject has no ordinals.  Then the chain asks of a node what its subject asks, and the
relation. -/
theorem Complex.accepts_linked (h : m.tree.Forest) (hx : m.tree.Within x m.scope)
    (hpool : via.isUpward = true ∨ ∀ s ∈ compound, s.isOrdinal = false) (left : Complex) :
    (linked compound via left).accepts m x =
      ((only compound).accepts m x && m.relates via (left.accepts m) x) := by
  rw [accepts, accepts]
  rcases hpool with hvia | hplain
  · cases hrelates : m.relates via (left.accepts m) x with
    | false => rw [Bool.and_false, Bool.and_false]
    | true => rw [Matcher.satisfies_of_isUpward h hvia hx hrelates]
  · rw [Matcher.satisfies_of_not_ordinal _ hplain, Matcher.satisfies_of_not_ordinal _ hplain]

namespace Tree

variable {t : Tree} {engine : PatternEngine} {scope : NodeId}

/-- Such a chain selects what its subject selects and what is related as it says. -/
theorem Forest.select_linked (h : t.Forest)
    (hpool : via.isUpward = true ∨ ∀ s ∈ compound, s.isOrdinal = false) (left : Complex) :
    (t.select engine scope [.linked compound via left]).ids =
      (t.select engine scope [.only compound]).ids.filter
        (Matcher.relates ⟨t, engine, scope⟩ via (left.accepts ⟨t, engine, scope⟩)) := by
  simp only [select, Matcher.selectAll, List.filter_filter, Complex.anyAccepts, Bool.or_false]
  refine List.filter_congr fun x hx => ?_
  have hwithin : t.Within x scope := (h.mem_descendants.1 hx).within
  rw [Complex.accepts_linked (m := ⟨t, engine, scope⟩) h hwithin hpool]
  ac_rfl

/-- A node that such a chain selects is selected by its subject and related as it says. -/
theorem Forest.mem_select_linked (h : t.Forest)
    (hpool : via.isUpward = true ∨ ∀ s ∈ compound, s.isOrdinal = false) {left : Complex} :
    x ∈ (t.select engine scope [.linked compound via left]).ids ↔
      x ∈ (t.select engine scope [.only compound]).ids ∧
        ∃ y, Matcher.Related ⟨t, engine, scope⟩ via x y ∧
          left.accepts ⟨t, engine, scope⟩ y = true := by
  rw [h.select_linked hpool, List.mem_filter]
  refine and_congr_right fun hx => ?_
  have hbelow : t.Below x scope := (h.mem_select.1 hx).2.1
  rw [Matcher.relates_eq_true_iff (m := ⟨t, engine, scope⟩) h hbelow.within,
    and_iff_right (h.ne_of_below hbelow)]

/-- **Explicit combinators refine the loose ones.**  What is selected as a child is selected
as a descendant, whatever ordinals there are on either side.  What is selected as the next
sibling is selected as a later sibling, if there are no ordinals on the right. -/
theorem Reachable.select_refined (h : Reachable t) (engine : PatternEngine) (scope : NodeId)
    (a : Complex) (b : Compound) :
    (t.select engine scope [.linked b .child a]).ids ⊆
      (t.select engine scope [.linked b .descendant a]).ids ∧
    ((∀ s ∈ b, s.isOrdinal = false) →
      (t.select engine scope [.linked b .nextSibling a]).ids ⊆
        (t.select engine scope [.linked b .subsequentSibling a]).ids) := by
  have hforest : t.Forest := h.forest
  constructor
  · intro x hx
    obtain ⟨hsubject, p, (hparent : t.parent? x = some p), hp⟩ :=
      (hforest.mem_select_linked (.inl rfl)).1 hx
    have hbelow : t.Below x scope := (hforest.mem_select.1 hsubject).2.1
    -- the parent of what is below the scope root lies within the scope
    exact (hforest.mem_select_linked (.inl rfl)).2
      ⟨hsubject, p, ⟨.single hparent, hbelow.parent_within hparent⟩, hp⟩
  · intro hplain x hx
    obtain ⟨hsubject, y, hlast, hy⟩ := (hforest.mem_select_linked (.inr hplain)).1 hx
    exact (hforest.mem_select_linked (.inr hplain)).2
      ⟨hsubject, y, List.mem_of_getLast? hlast, hy⟩

/-- The second item of the outer list is its child, and the second one of the inner list is
further down; of the items after the first one in a list, one is not next to it. -/
theorem select_refined_items :
    let outer : Complex := .linked [.type "ul", .ordinal ⟨.eq, 0⟩] .child (.only [.scope])
    let second : Compound := [.type "li", .ordinal ⟨.eq, 1⟩]
    let first : Complex := .only [.type "li", .ordinal ⟨.eq, 0⟩]
    ∃ t : Tree, Reachable t ∧
      (t.select ⟨fun _ => .error ""⟩ root [.linked second .child outer]).ids = [3] ∧
      3 ∈ (t.select ⟨fun _ => .error ""⟩ root [.linked second .descendant outer]).ids ∧
      6 ∈ (t.select ⟨fun _ => .error ""⟩ root [.linked second .descendant outer]).ids ∧
      (t.select ⟨fun _ => .error ""⟩ root [.linked [.type "li"] .nextSibling first]).ids = [3, 6] ∧
      3 ∈ (t.select ⟨fun _ => .error ""⟩ root
        [.linked [.type "li"] .subsequentSibling first]).ids ∧
      7 ∈ (t.select ⟨fun _ => .error ""⟩ root
        [.linked [.type "li"] .subsequentSibling first]).ids := by
  intro outer second first
  let item : Description := .element "li" .empty []
  have h := Reachable.empty.appendDescription .empty root (.element "ul" .empty
    [item, .element "li" .empty [.element "ul" .empty [item, item]], item]) fun _ _ => by decide
  have hchild := (h.select_refined ⟨fun _ => .error ""⟩ root outer second).1
  have hnext := (h.select_refined ⟨fun _ => .error ""⟩ root first [.type "li"]).2 (by decide)
  exact ⟨_, h, by decide +kernel, hchild (by decide +kernel), by decide +kernel,
    by decide +kernel, hnext (by decide +kernel), by decide +kernel⟩

end Tree

end MarkupQuery
