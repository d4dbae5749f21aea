import MarkupQuery.Proofs.Positions

/-!
# Narrower scopes

A query from a node of a scope finds nothing that the query from the scope root would not
find.  What bounds the narrow search are nodes that the wide one meets as well, and it is
bounded by them at no other node.  This is so as long as nothing asks where the scope
begins: neither `:scope`, nor an ordinal, which gives the scope root the first place, nor
`:not`, which turns what a wide search finds more into less.  In the argument of `:has`
they may ask, for its scope begins at the candidate.

* `Simple.isUnscoped`, `Complex.IsUnscoped` — what asks for nothing of that kind;
* `Matcher.Related.widen` — what is related in a narrow scope is so in a wide one;
* `Complex.accepts_widen` — so is what a chain accepts;
* `Reachable.select_narrowed` — what is selected from a node of the scope.
-/

namespace MarkupQuery

open MarkupQuery.Tree

variable {m : Matcher} {inner x y : NodeId}

/-! ### Selectors that do not ask for the scope -/

/-- Whether a simple selector says the same from every scope.  What is in the argument of
`:has` does not matter. -/
def Simple.isUnscoped : Simple → Bool
  | .scope | .not _ | .ordinal _ => false
  | _ => true

/-- All simple selectors of a chain say the same from every scope. -/
def Complex.IsUnscoped (c : Complex) : Prop :=
  ∀ compound ∈ c.compounds, ∀ s ∈ compound, s.isUnscoped = true

instance (c : Complex) : Decidable c.IsUnscoped :=
  inferInstanceAs (Decidable (∀ compound ∈ c.compounds, ∀ s ∈ compound, s.isUnscoped = true))

theorem Complex.isUnscoped_only {compound : Compound} :
    (only compound).IsUnscoped ↔ ∀ s ∈ compound, s.isUnscoped = true := by
  simp [IsUnscoped, compounds, subject, links]

theorem Complex.isUnscoped_linked {compound : Compound} {via : Combinator} {left : Complex} :
    (linked compound via left).IsUnscoped ↔
      (∀ s ∈ compound, s.isUnscoped = true) ∧ left.IsUnscoped :=
  List.forall_mem_cons

namespace Simple

theorem isOrdinal_of_isUnscoped {s : Simple} (h : s.isUnscoped = true) : s.isOrdinal = false := by
  cases s with
  | ordinal o => cases h
  | _ => rfl

theorem test_of_isUnscoped {s : Simple} (h : s.isUnscoped = true) (scope : NodeId) :
    s.test { m with scope := scope } x = s.test m x := by
  cases s with
  | scope | not _ | ordinal _ => cases h
  | _ => rfl

/-- A compound of such parts is satisfied in every scope alike, whatever competes. -/
theorem satisfies_of_isUnscoped {compound : Compound} (h : ∀ s ∈ compound, s.isUnscoped = true)
    (scope : NodeId) (competes competes' : NodeId → Bool) :
    Matcher.satisfies { m with scope := scope } competes
        (Simple.conditions { m with scope := scope } compound) x =
      m.satisfies competes' (Simple.conditions m compound) x := by
  have hplain : ∀ s ∈ compound, s.isOrdinal = false :=
    fun s hs => isOrdinal_of_isUnscoped (h s hs)
  rw [Matcher.satisfies_of_not_ordinal _ hplain, Matcher.satisfies_of_not_ordinal _ hplain,
    Bool.eq_iff_iff, List.all_eq_true, List.all_eq_true]
  refine forall₂_congr fun s hs => ?_
  rw [test_of_isUnscoped (h s hs)]

end Simple

/-! ### From a narrow scope to a wide one -/

/-- **What is related** in a narrow scope is related in a wide one. -/
theorem Matcher.Related.widen {via : Combinator} (hinner : m.tree.Within inner m.scope)
    (h : Matcher.Related { m with scope := inner } via x y) : m.Related via x y := by
  cases via with
  | descendant => exact ⟨h.1, h.2.trans hinner⟩
  | child | nextSibling | subsequentSibling => exact h

namespace Complex

/-- **What a chain accepts** in a narrow scope it accepts in a wide one. -/
theorem accepts_widen (h : m.tree.Forest) (hinner : m.tree.Within inner m.scope) :
    ∀ c : Complex, c.IsUnscoped → ∀ x, m.tree.Within x inner →
      c.accepts { m with scope := inner } x = true → c.accepts m x = true
  | .only compound, hc, x, _, haccepts => by
    rw [isUnscoped_only] at hc
    rw [accepts, Simple.satisfies_of_isUnscoped hc inner _ fun _ => true] at haccepts
    rw [accepts]
    exact haccepts
  | .linked compound via left, hc, x, hx, haccepts => by
    obtain ⟨hparts, hleft⟩ := isUnscoped_linked.1 hc
    rw [accepts, Bool.and_eq_true,
      Simple.satisfies_of_isUnscoped hparts inner _ (m.relates via (left.accepts m)),
      Matcher.relates_eq_true_iff (m := { m with scope := inner }) h hx] at haccepts
    obtain ⟨hcompound, hne, y, hrelated, hy⟩ := haccepts
    have hbelow : m.tree.Below x inner := below_of_within hx hne
    -- the wide search does not stop at a node that the narrow one passes
    have hne' : x ≠ m.scope := h.ne_of_below (hbelow.trans_left hinner)
    rw [accepts, Bool.and_eq_true, Matcher.relates_eq_true_iff h (hx.trans hinner)]
    have hwithin : m.tree.Within y inner :=
      Matcher.Related.within (m := { m with scope := inner }) h hbelow hrelated
    exact ⟨hcompound, hne', y, hrelated.widen hinner,
      accepts_widen h hinner left hleft y hwithin hy⟩

/-- A single compound is accepted in every scope alike. -/
theorem IsUnscoped.accepts_of_links_eq_nil {c : Complex} (hc : c.IsUnscoped) (hlinks : c.links = [])
    (scope : NodeId) : c.accepts { m with scope := scope } x = c.accepts m x := by
  cases c with
  | only compound =>
      rw [isUnscoped_only] at hc
      rw [accepts, accepts, Simple.satisfies_of_isUnscoped hc]
  | linked compound via left => cases hlinks

end Complex

/-! ### Selections -/

namespace Tree

variable {t : Tree} {engine : PatternEngine} {scope : NodeId} {list : SelectorList}

/-- **Narrowing the scope** adds nothing to what is selected: by selectors that do not ask
where the scope begins, outside of arguments of `:has`, all that is selected from a node of
the scope is selected from the scope root.  Without combinators it is all of that which is
below the node, in the same order. -/
theorem Reachable.select_narrowed (h : Reachable t) (engine : PatternEngine)
    (hinner : t.Within inner scope) (hlist : ∀ c ∈ list, c.IsUnscoped) :
    (t.select engine inner list).ids ⊆ (t.select engine scope list).ids ∧
    ((∀ c ∈ list, c.links = []) →
      (t.select engine inner list).ids =
        (t.select engine scope list).ids.filter fun x => t.isBelow x inner) := by
  have hforest : t.Forest := h.forest
  have hmem : ∀ s x, x ∈ (t.select engine s list).ids ↔ t.isElement x = true ∧ t.Below x s ∧
      ∃ c ∈ list, c.accepts ⟨t, engine, s⟩ x = true := by
    intro s x
    rw [hforest.mem_select]
    refine and_congr_right fun _ => and_congr_right fun hx => ?_
    rw [hforest.accepts_of_below hx, Complex.anyAccepts_iff]
  constructor
  · intro x hx
    obtain ⟨helement, hbelow, c, hc, haccepts⟩ := (hmem inner x).1 hx
    refine (hmem scope x).2 ⟨helement, hbelow.trans_left hinner, c, hc, ?_⟩
    exact c.accepts_widen (m := ⟨t, engine, scope⟩) hforest hinner (hlist c hc) x hbelow.within
      haccepts
  · intro hlinks
    have hsame : ∀ x, (∃ c ∈ list, c.accepts ⟨t, engine, inner⟩ x = true) ↔
        ∃ c ∈ list, c.accepts ⟨t, engine, scope⟩ x = true := by
      intro x
      refine exists_congr fun c => and_congr_right fun hc => ?_
      rw [← (hlist c hc).accepts_of_links_eq_nil (m := ⟨t, engine, scope⟩) (hlinks c hc) inner]
    refine hforest.eq_of_pairwise_precedes hforest.pairwise_select
      (hforest.pairwise_select.filter _) fun x => ?_
    rw [List.mem_filter, hmem, hmem, hforest.isBelow_iff, hsame]
    constructor
    · rintro ⟨helement, hbelow, haccepts⟩
      exact ⟨⟨helement, hbelow.trans_left hinner, haccepts⟩, hbelow⟩
    · rintro ⟨⟨helement, -, haccepts⟩, hbelow⟩
      exact ⟨helement, hbelow, haccepts⟩

/-- What is bold below a division whose first paragraph is its child is found from that
division and from the one around it, and of all that is bold only what is below. -/
theorem select_narrowed_division :
    let bold : SelectorList := [.only [.type "b"]]
    let below : SelectorList := [.linked [.type "b"] .descendant (.only [.type "div", .has
      [.linked [.type "p", .ordinal ⟨.eq, 0⟩] .child (.only [.scope])]])]
    ∃ t : Tree, Reachable t ∧ t.Within 2 1 ∧
      (t.select ⟨fun _ => .error ""⟩ 2 below).ids = [4] ∧
      4 ∈ (t.select ⟨fun _ => .error ""⟩ 1 below).ids ∧
      (t.select ⟨fun _ => .error ""⟩ 1 bold).ids = [4, 5] ∧
      (t.select ⟨fun _ => .error ""⟩ 2 bold).ids = [4] := by
  intro bold below
  have h := Reachable.empty.appendDescription .empty root
    (.element "div" .empty [.element "div" .empty [.element "p" .empty [.element "b" .empty []]],
      .element "b" .empty []]) fun _ _ => by decide
  have hinner := (h.forest.isBelow_iff.1 (show Tree.isBelow _ 2 1 = true by decide +kernel)).within
  have hbelow := h.select_narrowed ⟨fun _ => .error ""⟩ hinner
    (show ∀ c ∈ below, c.IsUnscoped by decide)
  have hbold := h.select_narrowed ⟨fun _ => .error ""⟩ hinner
    (show ∀ c ∈ bold, c.IsUnscoped by decide)
  refine ⟨_, h, hinner, by decide +kernel, hbelow.1 (by decide +kernel), by decide +kernel, ?_⟩
  exact (hbold.2 (by decide)).trans (by decide +kernel)

end Tree

end MarkupQuery
