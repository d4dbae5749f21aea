import MarkupQuery.Proofs.Selections

/-!
# Positions in a selection

Ordinals at the end of a compound filter what the chain selects without them.  The
matcher never builds that selection: at every candidate it counts the elements before it
that the rest of the chain accepts.  This count is the place of the candidate among the
selected elements with the same parent.

* `Complex.withOrdinals` — a chain with ordinals after its subject;
* `Complex.accepts_withOrdinals` — each of them asks for the same rank;
* `Tree.indexAmong` — the place among the listed nodes with the same parent;
* `Reachable.select_withOrdinals` — ordinals filter by this place.
-/

namespace MarkupQuery

variable {m : Matcher} {x : NodeId}

/-! ### Conditions one after the other -/

/-- Conditions count the competitors that the conditions before them leave. -/
theorem Matcher.satisfies_append (competes : NodeId → Bool) (front back : List Simple) :
    m.satisfies competes (Simple.conditions m (front ++ back)) x =
      (m.satisfies competes (Simple.conditions m front) x &&
        m.satisfies (fun y => competes y && front.all (·.test m y))
          (Simple.conditions m back) x) := by
  induction front generalizing competes with
  | nil => simp [Simple.conditions, satisfies]
  | cons s rest ih =>
      cases hs : s.condition m with
      | holds p => simp [Simple.conditions, satisfies, hs, ih, Simple.test, Bool.and_assoc]
      | ordinal o => simp [Simple.conditions, satisfies, hs, ih, Simple.test, Bool.and_assoc]

/-- Without ordinals a compound asks for each of its simple selectors alone. -/
theorem Matcher.satisfies_of_not_ordinal (competes : NodeId → Bool) {compound : Compound}
    (h : ∀ s ∈ compound, s.isOrdinal = false) :
    m.satisfies competes (Simple.conditions m compound) x = compound.all (·.test m x) := by
  induction compound generalizing competes with
  | nil => rfl
  | cons s rest ih =>
      obtain ⟨hs, hrest⟩ := List.forall_mem_cons.1 h
      cases hcondition : s.condition m with
      | holds p =>
          have htest : s.test m x = p x := by simp [Simple.test, hcondition]
          simp [Simple.conditions, satisfies, hcondition, ih _ hrest, htest]
      | ordinal o =>
          rw [Simple.condition_eq_ordinal_iff.1 hcondition] at hs
          cases hs

/-- Ordinals one after the other ask for one and the same rank. -/
theorem Matcher.satisfies_ordinals (competes : NodeId → Bool) (os : List Ordinal) :
    m.satisfies competes (Simple.conditions m (os.map .ordinal)) x =
      os.all fun o => o.accepts (m.rank competes x) := by
  induction os with
  | nil => rfl
  | cons o rest ih => simp [Simple.conditions, Simple.condition, satisfies, ih]

/-- A chain with ordinals after its subject. -/
def Complex.withOrdinals (os : List Ordinal) : Complex → Complex
  | .only compound => .only (compound ++ os.map .ordinal)
  | .linked compound via left => .linked (compound ++ os.map .ordinal) via left

/-- **Ordinals after a subject** that has none ask for the rank among what the chain
accepts. -/
theorem Complex.accepts_withOrdinals {c : Complex} (h : ∀ s ∈ c.subject, s.isOrdinal = false)
    (os : List Ordinal) :
    (c.withOrdinals os).accepts m x =
      (c.accepts m x && os.all fun o => o.accepts (m.rank (c.accepts m) x)) := by
  cases c with
  | only compound =>
      have hplain : ∀ s ∈ compound, s.isOrdinal = false := h
      have hcompetes : (fun y => true && compound.all (·.test m y)) =
          (Complex.only compound).accepts m := by
        funext y
        rw [accepts, Matcher.satisfies_of_not_ordinal _ hplain, Bool.true_and]
      rw [withOrdinals, accepts, Matcher.satisfies_append, Matcher.satisfies_ordinals,
        hcompetes, accepts]
  | linked compound via left =>
      have hplain : ∀ s ∈ compound, s.isOrdinal = false := h
      have hcompetes : (fun y => m.relates via (left.accepts m) y && compound.all (·.test m y)) =
          (Complex.linked compound via left).accepts m := by
        funext y
        rw [accepts, Matcher.satisfies_of_not_ordinal _ hplain, Bool.and_comm]
      rw [withOrdinals, accepts, Matcher.satisfies_append, Matcher.satisfies_ordinals,
        hcompetes, accepts, Bool.and_right_comm]

namespace Tree

variable {t : Tree} {engine : PatternEngine} {scope p : NodeId}

/-- The place of a node, counted from zero, among the listed nodes with the same parent. -/
def indexAmong (t : Tree) (ids : List NodeId) (x : NodeId) : Nat :=
  (ids.filter fun y => t.parent? y == t.parent? x).idxOf x

/-- A list of one chain accepts what the chain does. -/
theorem Forest.accepts_singleton (h : t.Forest) {c : Complex} (hx : t.Below x scope) :
    t.accepts engine scope [c] x = c.accepts ⟨t, engine, scope⟩ x := by
  simp [h.accepts_of_below hx, Complex.anyAccepts]

/-- The selected elements with one parent are its accepted children. -/
theorem Forest.filter_select (h : t.Forest) (hp : t.Within p scope) (c : Complex) :
    (t.select engine scope [c]).ids.filter (fun y => t.parent? y == some p) =
      (t.children p).filter fun y => t.isElement y && c.accepts ⟨t, engine, scope⟩ y := by
  refine h.eq_of_pairwise_precedes (h.pairwise_select.filter _)
    ((Forest.pairwise_children t p).filter _) fun y => ?_
  have hbelow : t.parent? y = some p → t.Below y scope := fun hy => .head' hy hp
  rw [List.mem_filter, List.mem_filter, h.mem_select, h.mem_children, beq_iff_eq,
    Bool.and_eq_true]
  constructor
  · rintro ⟨⟨helement, hy, haccepts⟩, hparent⟩
    exact ⟨hparent, helement, (h.accepts_singleton hy).symm.trans haccepts⟩
  · rintro ⟨hparent, helement, haccepts⟩
    have hy := hbelow hparent
    exact ⟨⟨helement, hy, (h.accepts_singleton hy).trans haccepts⟩, hparent⟩

/-- The place of a member of a list is the number of those listed before it. -/
theorem idxOf_filter_split {α : Type} [BEq α] [LawfulBEq α] {q : α → Bool} {a : α}
    {before after : List α} (ha : a ∉ before) (hq : q a = true) :
    ((before ++ a :: after).filter q).idxOf a = before.countP q := by
  have hnot : a ∉ before.filter q := fun h => ha (List.mem_filter.1 h).1
  rw [List.filter_append, List.filter_cons_of_pos hq, List.idxOf_append_of_notMem hnot,
    List.idxOf_cons_self, List.countP_eq_length_filter, Nat.add_zero]

/-- **The rank of a selected element** is its place among the selected elements with the
same parent. -/
theorem Forest.rank_eq_indexAmong (h : t.Forest) {c : Complex}
    (hx : x ∈ (t.select engine scope [c]).ids) :
    (Matcher.mk t engine scope).rank (c.accepts ⟨t, engine, scope⟩) x =
      t.indexAmong (t.select engine scope [c]).ids x := by
  obtain ⟨helement, hbelow, haccepts⟩ := h.mem_select.1 hx
  obtain ⟨p, hparent, hp⟩ := Relation.TransGen.head'_iff.1 hbelow
  have hparent : t.parent? x = some p := hparent
  have hne : x ≠ scope := h.ne_of_below hbelow
  obtain ⟨before, after, hsplit⟩ := List.append_of_mem (h.mem_children.2 hparent)
  have hq : (t.isElement x && c.accepts ⟨t, engine, scope⟩ x) = true := by
    rw [helement, Bool.true_and, ← h.accepts_singleton hbelow, haccepts]
  rw [Matcher.rank, if_neg hne, indexAmong, hparent, h.filter_select hp, hsplit,
    idxOf_filter_split (h.notMem_of_children_eq hsplit) hq, precedingElements,
    h.precedingSiblings_eq hsplit, List.filter_reverse, List.countP_reverse, List.countP_filter]
  simp only [Bool.and_comm]

/-- Each position passes one of three filters. -/
theorem perm_filter_positions {α : Type} (f : α → Nat) (n : Nat) (l : List α) :
    (l.filter (fun a => (Ordinal.mk .lt n).accepts (f a)) ++
      l.filter (fun a => (Ordinal.mk .eq n).accepts (f a)) ++
      l.filter (fun a => (Ordinal.mk .gt n).accepts (f a))).Perm l := by
  induction l with
  | nil => exact .refl _
  | cons a rest ih =>
      rcases Nat.lt_trichotomy (f a) n with hlt | heq | hgt
      · have hne : f a ≠ n := Nat.ne_of_lt hlt
        simpa [Ordinal.accepts, hlt, hne, Nat.not_lt_of_lt hlt] using ih
      · simp only [Ordinal.accepts, List.append_assoc] at ih ⊢
        simpa [heq] using List.perm_middle.trans (ih.cons a)
      · have hne : f a ≠ n := Nat.ne_of_gt hgt
        simp only [Ordinal.accepts] at ih ⊢
        simpa [hgt, hne, Nat.not_lt_of_lt hgt] using List.perm_middle.trans (ih.cons a)

/-- What is selected with ordinals is what passes them in the selection without. -/
theorem Forest.select_withOrdinals_ids (h : t.Forest) {c : Complex}
    (hc : ∀ s ∈ c.subject, s.isOrdinal = false) (os : List Ordinal) :
    (t.select engine scope [c.withOrdinals os]).ids =
      (t.select engine scope [c]).ids.filter fun x =>
        os.all fun o => o.accepts (t.indexAmong (t.select engine scope [c]).ids x) := by
  have hsplit : (t.select engine scope [c.withOrdinals os]).ids =
      (t.select engine scope [c]).ids.filter fun x => os.all fun o =>
        o.accepts ((Matcher.mk t engine scope).rank (c.accepts ⟨t, engine, scope⟩) x) := by
    simp only [select, Matcher.selectAll, List.filter_filter, Complex.anyAccepts,
      Complex.accepts_withOrdinals hc, Bool.or_false]
    congr 1
    funext x
    ac_rfl
  rw [hsplit]
  refine List.filter_congr fun x hx => ?_
  rw [h.rank_eq_indexAmong hx]

/-- **Ordinals filter what is selected without them.**  After a subject that has none,
ordinals leave the selected elements whose place among those with the same parent passes
all of them: one pool for all, whatever their order.  The three kinds with one bound
share out the whole selection. -/
theorem Reachable.select_withOrdinals (h : Reachable t) (engine : PatternEngine)
    (scope : NodeId) {c : Complex} (hc : ∀ s ∈ c.subject, s.isOrdinal = false) :
    (t.select engine scope [c]).ids.Pairwise t.Precedes ∧
    (t.select engine scope [c]).ids.Nodup ∧
    (∀ os, (t.select engine scope [c.withOrdinals os]).ids =
      (t.select engine scope [c]).ids.filter fun x =>
        os.all fun o => o.accepts (t.indexAmong (t.select engine scope [c]).ids x)) ∧
    (∀ n, ((t.select engine scope [c.withOrdinals [⟨.lt, n⟩]]).ids ++
      (t.select engine scope [c.withOrdinals [⟨.eq, n⟩]]).ids ++
      (t.select engine scope [c.withOrdinals [⟨.gt, n⟩]]).ids).Perm
        (t.select engine scope [c]).ids) ∧
    ∀ os os', os.Perm os' →
      t.select engine scope [c.withOrdinals os] = t.select engine scope [c.withOrdinals os'] := by
  have hforest : t.Forest := h.forest
  refine ⟨hforest.pairwise_select, hforest.nodup_select,
    hforest.select_withOrdinals_ids hc, fun n => ?_, fun os os' hperm => ?_⟩
  · simpa only [hforest.select_withOrdinals_ids hc, List.all_cons, List.all_nil, Bool.and_true]
      using perm_filter_positions _ n _
  · rw [Selection.mk.injEq, hforest.select_withOrdinals_ids hc, hforest.select_withOrdinals_ids hc]
    refine List.filter_congr fun x _ => ?_
    exact hperm.all_eq

/-- In each of two lists the places are counted from the start, and only items count. -/
theorem select_withOrdinals_two_lists :
    ∃ t : Tree, Reachable t ∧
      (t.select ⟨fun _ => .error ""⟩ root
        [.linked [.type "li"] .child (.only [.type "ul"])]).ids = [3, 4, 7, 8] ∧
      (t.select ⟨fun _ => .error ""⟩ root
        [.linked [.type "li", .ordinal ⟨.gt, 0⟩, .ordinal ⟨.lt, 2⟩] .child
          (.only [.type "ul"])]).ids = [4, 8] := by
  let list : Description := .element "ul" .empty
    [.element "p" .empty [], .element "li" .empty [], .element "li" .empty []]
  have h₁ := Reachable.empty.appendDescription .empty root list fun _ _ => by decide
  have h := h₁.appendDescription .empty root list fun _ _ => by decide +kernel
  have hfilter := (Reachable.select_withOrdinals h ⟨fun _ => .error ""⟩ root
    (c := .linked [.type "li"] .child (.only [.type "ul"])) (by decide)).2.2.1
  refine ⟨_, h, by decide +kernel, ?_⟩
  refine (hfilter [⟨.gt, 0⟩, ⟨.lt, 2⟩]).trans ?_
  decide +kernel

end Tree

end MarkupQuery
