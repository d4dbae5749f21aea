import MarkupQuery.Proofs.Growth
import MarkupQuery.Proofs.Meaning

/-!
# Matching decides the meaning

The search from the subject outward accepts a node exactly if a trail leads away from
it.  Everything the search asks of the tree it asks of nodes within the scope, where
its walks find what the links say.

* `Matcher.mem_reached` — a combinator leads to what it relates;
* `Matcher.satisfies_iff` — conditions in order, and the competitors that they leave;
* `Complex.accepts_iff_trail` — the whole chain.
-/

namespace MarkupQuery

open MarkupQuery.Tree

/-! ### Within the scope -/

section Scope

variable {t : Tree} {x y s : NodeId}

/-- Cutting a way up at the scope root leaves what is within the scope. -/
theorem Matcher.mem_upTo (h : t.Forest) {ids : List NodeId} (hids : ids.Pairwise t.Below)
    (hs : s ∈ ids) : y ∈ upTo s ids ↔ y ∈ ids ∧ t.Within y s := by
  induction ids with
  | nil => cases hs
  | cons a rest ih =>
    obtain ⟨habove, hrest⟩ := List.pairwise_cons.1 hids
    by_cases ha : a = s
    · subst ha
      rw [upTo, if_pos rfl, List.mem_singleton, List.mem_cons]
      constructor
      · intro hy
        subst hy
        exact ⟨.inl rfl, .refl⟩
      · intro hy
        obtain ⟨hy | hy, hw⟩ := hy
        · exact hy
        · -- what comes after the scope root is above it
          exact absurd ((habove y hy).trans_left hw) (h.not_below_self a)
    · have hs' : s ∈ rest := by simpa [Ne.symm ha] using hs
      simp only [upTo, if_neg ha, List.mem_cons, ih hrest hs']
      constructor
      · intro hy
        rcases hy with rfl | hy
        · exact ⟨.inl rfl, (habove s hs').within⟩
        · exact ⟨.inr hy.1, hy.2⟩
      · intro hy
        obtain ⟨hy | hy, hw⟩ := hy
        · exact .inl hy
        · exact .inr ⟨hy, hw⟩

end Scope

namespace Matcher

variable {m : Matcher} {x y : NodeId}

/-- **A combinator leads to what it relates.** -/
theorem mem_reached (h : m.tree.Forest) (hx : m.tree.Below x m.scope) (via : Combinator) :
    y ∈ m.reached via x ↔ m.Related via x y := by
  cases via with
  | descendant =>
    have hs : m.scope ∈ m.tree.ancestors x := h.mem_ancestors.2 hx
    simp only [reached, scopedAncestors, Related]
    rw [mem_upTo h (pairwise_ancestors m.tree x) hs, h.mem_ancestors]
  | child => simp [reached, Related]
  | nextSibling => simp [reached, Related, h.precedingElements_eq]
  | subsequentSibling => simp [reached, Related, h.precedingElements_eq]

theorem Related.within (h : m.tree.Forest) {via : Combinator} (hx : m.tree.Below x m.scope)
    (hxy : m.Related via x y) : m.tree.Within y m.scope := by
  cases via with
  | descendant => exact hxy.2
  | child => exact hx.parent_within hxy
  | nextSibling => exact (hx.of_mem_elementsBefore h (List.mem_of_getLast? hxy)).within
  | subsequentSibling => exact (hx.of_mem_elementsBefore h hxy).within

/-- The search goes on from every node of the scope but its root. -/
theorem relates_eq_true_iff (h : m.tree.Forest) {via : Combinator} {left : NodeId → Bool}
    (hx : m.tree.Within x m.scope) :
    m.relates via left x = true ↔ x ≠ m.scope ∧ ∃ y, m.Related via x y ∧ left y = true := by
  by_cases hne : x = m.scope
  · simp [relates, hne]
  · simp only [relates, Bool.and_eq_true, bne_iff_ne, List.any_eq_true,
      mem_reached h (below_of_within hx hne)]

/-- The search goes on over a combinator where a trail does. -/
theorem relates_iff (h : m.tree.Forest) {via : Combinator} {left : NodeId → Bool}
    {trail : List NodeId → Prop}
    (hleft : ∀ y, m.tree.Within y m.scope → (left y = true ↔ ∃ rest, trail (y :: rest)))
    (hx : m.tree.Within x m.scope) : m.relates via left x = true ↔ m.Leads via trail x := by
  rw [relates_eq_true_iff h hx, Leads]
  refine and_congr_right fun hne => exists_congr fun y => ?_
  have hbelow : m.tree.Below x m.scope := below_of_within hx hne
  constructor
  · intro hy
    obtain ⟨rest, hrest⟩ := (hleft y (hy.1.within h hbelow)).1 hy.2
    exact ⟨rest, hy.1, hrest⟩
  · intro hy
    obtain ⟨rest, hrel, hrest⟩ := hy
    exact ⟨hrel, (hleft y (hrel.within h hbelow)).2 ⟨rest, hrest⟩⟩

/-! ### Compounds -/

/-- The search counts the competitors where the meaning counts them. -/
theorem rank_eq (h : m.tree.Forest) {competes : NodeId → Bool} {competitor : NodeId → Prop}
    (hcompetes : ∀ y, m.tree.Within y m.scope → (competes y = true ↔ competitor y))
    (hx : m.tree.Within x m.scope) : m.rank competes x = m.placeAmong competitor x := by
  by_cases hne : x = m.scope
  · simp [rank, placeAmong, hne]
  · have hbelow : m.tree.Below x m.scope := below_of_within hx hne
    rw [rank, placeAmong, if_neg hne, if_neg hne, h.precedingElements_eq, List.countP_reverse]
    refine List.countP_congr fun y hy => ?_
    rw [hcompetes y (hbelow.of_mem_elementsBefore h hy).within]
    simp

end Matcher

variable {m : Matcher} {x : NodeId}

/-- Whether the condition of a simple selector passes at a node by itself.  An ordinal
passes here. -/
def Simple.test (m : Matcher) (s : Simple) (x : NodeId) : Bool :=
  match s.condition m with
  | .holds p => p x
  | .ordinal _ => true

@[simp] theorem Simple.condition_eq_ordinal_iff {s : Simple} {o : Ordinal} :
    s.condition m = .ordinal o ↔ s = .ordinal o := by
  cases s <;> simp [Simple.condition, Matcher.onElement]

/-- A place in a list is its first place or one in the rest. -/
theorem forall_split_cons {α : Type} {a : α} {l : List α} {P : List α → α → Prop} :
    (∀ front b back, a :: l = front ++ b :: back → P front b) ↔
      P [] a ∧ ∀ front b back, l = front ++ b :: back → P (a :: front) b := by
  constructor
  · intro h
    refine ⟨h [] a l rfl, fun front b back hl => ?_⟩
    exact h (a :: front) b back (by rw [hl, List.cons_append])
  · intro h front b back hl
    cases front with
    | nil =>
      obtain ⟨rfl, rfl⟩ := List.cons.inj hl
      exact h.1
    | cons c front =>
      obtain ⟨rfl, hrest⟩ := List.cons.inj hl
      exact h.2 front b back hrest

/-- **Conditions in order.**  They are satisfied if each of them passes and each ordinal
accepts the rank among the competitors that the conditions before it leave. -/
theorem Matcher.satisfies_iff (competes : NodeId → Bool) (compound : List Simple) :
    m.satisfies competes (Simple.conditions m compound) x = true ↔
      (∀ s ∈ compound, s.test m x = true) ∧
        ∀ front s back, compound = front ++ s :: back → ∀ o, s = .ordinal o →
          o.accepts (m.rank (fun y => competes y && front.all (·.test m y)) x) = true := by
  induction compound generalizing competes with
  | nil => simp [Simple.conditions, satisfies]
  | cons s rest ih =>
    rw [forall_split_cons]
    cases hs : s.condition m with
    | holds p =>
      have hne : ∀ o, s ≠ .ordinal o := by
        intro o he
        rw [Simple.condition_eq_ordinal_iff.2 he] at hs
        cases hs
      simp [Simple.conditions, satisfies, hs, ih, Simple.test, hne, Bool.and_assoc, and_assoc]
    | ordinal o =>
      obtain rfl := Simple.condition_eq_ordinal_iff.1 hs
      simp [Simple.conditions, satisfies, hs, ih, Simple.test, and_left_comm]

/-! ### Selectors -/

/-- Testing a node within the scope decides what a simple selector says about it. -/
def Simple.Decided (s : Simple) : Prop :=
  ∀ (m : Matcher) (x : NodeId), m.tree.Forest → m.tree.Within x m.scope →
    (s.test m x = true ↔ s.Holds m x)

/-- Accepting a node within the scope decides whether a trail leads away from it. -/
def Complex.Decided (c : Complex) : Prop :=
  ∀ (m : Matcher) (x : NodeId), m.tree.Forest → m.tree.Within x m.scope →
    (c.accepts m x = true ↔ ∃ rest, c.Trail m (x :: rest))

/-- A compound of decided parts. -/
theorem Matcher.satisfies_iff_satisfied (h : m.tree.Forest) {competes : NodeId → Bool}
    {left : NodeId → Prop} {compound : List Simple} (hparts : ∀ s ∈ compound, s.Decided)
    (hleft : ∀ y, m.tree.Within y m.scope → (competes y = true ↔ left y))
    (hx : m.tree.Within x m.scope) :
    m.satisfies competes (Simple.conditions m compound) x = true ↔
      Compound.Satisfied m left compound x := by
  rw [satisfies_iff, Compound.Satisfied]
  refine and_congr (forall₂_congr fun s hs => hparts s hs m x h hx) ?_
  -- an ordinal counts the same competitors on both sides
  have hrank : ∀ front o back, compound = front ++ .ordinal o :: back →
      m.rank (fun y => competes y && front.all (·.test m y)) x =
        m.placeAmong (fun y => left y ∧ ∀ s ∈ front, s.Holds m y) x := by
    intro front o back hsplit
    refine rank_eq h (fun y hy => ?_) hx
    rw [Bool.and_eq_true, List.all_eq_true, hleft y hy]
    refine and_congr_right fun _ => forall₂_congr fun s hs => hparts s ?_ m y h hy
    rw [hsplit]
    exact List.mem_append_left _ hs
  constructor
  · intro hall front o back hsplit
    rw [← hrank front o back hsplit]
    exact hall front (.ordinal o) back hsplit o rfl
  · intro hall front s back hsplit o ho
    subst ho
    rw [hrank front o back hsplit]
    exact hall front o back hsplit

/-- A condition on elements that does not look at the element. -/
theorem Tree.any_element? {t : Tree} (b : Bool) :
    ((t.element? x).any fun _ => b) = (t.isElement x && b) := by
  cases he : t.element? x <;> simp [isElement, he]

theorem Complex.anyAccepts_iff {list : List Complex} :
    Complex.anyAccepts m list x = true ↔ ∃ c ∈ list, c.accepts m x = true := by
  induction list with
  | nil => simp [anyAccepts]
  | cons c rest ih => simp [anyAccepts, ih]

/-- Testing `:has` looks for an accepted element below an element. -/
theorem Simple.test_has {list : List Complex} : (Simple.has list).test m x =
    (m.tree.isElement x && ((m.tree.descendants x).filter m.tree.isElement).any
      (Complex.anyAccepts { m with scope := x } list)) := by
  simp [test, condition, Matcher.onElement, any_element?, List.any_filter]

/-- Testing `:not` asks for an element that is not accepted. -/
theorem Simple.test_not {list : List Complex} : (Simple.not list).test m x =
    (m.tree.isElement x && !Complex.anyAccepts m list x) := by
  simp [test, condition, Matcher.onElement, any_element?]

/-- What is below a node is within the scope that the node is the root of. -/
theorem Simple.has_decided {list : List Complex} (hlist : ∀ c ∈ list, c.Decided) :
    (Simple.has list).Decided := by
  intro m x h _
  have hbelow : ∀ y, m.tree.Below y x →
      (Complex.anyAccepts { m with scope := x } list y = true ↔
        ∃ c ∈ list, ∃ rest, c.Trail { m with scope := x } (y :: rest)) := by
    intro y hy
    rw [Complex.anyAccepts_iff]
    refine exists_congr fun c => and_congr_right fun hc => ?_
    exact hlist c hc { m with scope := x } y h hy.within
  have htest : (Simple.has list).test m x = true ↔ m.tree.isElement x ∧
      ∃ y ∈ m.tree.descendants x,
        m.tree.isElement y ∧ Complex.anyAccepts { m with scope := x } list y = true := by
    simp [test_has]
  rw [htest, holds_has]
  refine and_congr_right fun _ => exists_congr fun y => ?_
  rw [h.mem_descendants]
  exact and_congr_right fun hy => and_congr_right fun _ => hbelow y hy

theorem Simple.not_decided {list : List Complex} (hlist : ∀ c ∈ list, c.Decided) :
    (Simple.not list).Decided := by
  intro m x h hx
  have htest : (Simple.not list).test m x = true ↔ m.tree.isElement x ∧
      ¬ Complex.anyAccepts m list x = true := by
    simp [test_not]
  rw [htest, Holds, Complex.anyAccepts_iff]
  refine and_congr_right fun _ => ?_
  constructor
  · intro hnone c hc htrail
    exact hnone ⟨c, hc, (hlist c hc m x h hx).2 htrail⟩
  · intro hnone hsome
    obtain ⟨c, hc, haccepts⟩ := hsome
    exact hnone c hc ((hlist c hc m x h hx).1 haccepts)

mutual

theorem Simple.decided : ∀ s : Simple, s.Decided
  | .has list => Simple.has_decided (Complex.all_decided list)
  | .not list => Simple.not_decided (Complex.all_decided list)
  | .type _ | .universal | .id _ | .ofClass _ | .attribute _ | .scope | .structural _
  | .contains _ _ | .finds _ _ | .ordinal _ => by
    intro m x h hx
    simp [Simple.test, Simple.condition, Matcher.onElement, Simple.Holds, any_element?,
      isElement, Option.any_eq_true]

theorem Simple.all_decided : ∀ compound : List Simple, ∀ s ∈ compound, s.Decided
  | [] => by simp
  | s :: rest => List.forall_mem_cons.2 ⟨Simple.decided s, Simple.all_decided rest⟩

/-- **Matching a chain decides its meaning.** -/
theorem Complex.decided : ∀ c : Complex, c.Decided
  | .only compound => by
    intro m x h hx
    have hparts := Simple.all_decided compound
    rw [Complex.accepts, Complex.exists_trail_only]
    exact Matcher.satisfies_iff_satisfied h hparts (by simp) hx
  | .linked compound via left => by
    have hparts := Simple.all_decided compound
    have hleft := Complex.decided left
    intro m x h hx
    have hlead : ∀ y, m.tree.Within y m.scope →
        (m.relates via (left.accepts m) y = true ↔ m.Leads via (left.Trail m) y) :=
      fun y hy => Matcher.relates_iff h (fun z hz => hleft m z h hz) hy
    rw [Complex.accepts, Complex.exists_trail_linked, Bool.and_eq_true, hlead x hx]
    exact and_congr_left fun _ => Matcher.satisfies_iff_satisfied h hparts hlead hx

theorem Complex.all_decided : ∀ list : List Complex, ∀ c ∈ list, c.Decided
  | [] => by simp
  | c :: rest => List.forall_mem_cons.2 ⟨Complex.decided c, Complex.all_decided rest⟩

end

/-- **Matching from the subject outward decides the meaning.**  In every tree that can
come about, a chain accepts a node of the scope exactly if a trail leads away from it. -/
theorem Complex.accepts_iff_trail (h : Reachable m.tree) (hx : m.tree.Within x m.scope)
    (c : Complex) : c.accepts m x = true ↔ ∃ rest, c.Trail m (x :: rest) :=
  c.decided m x h.forest hx

/-- The nearest paragraph around a span is not a child of the division, the outer one
is; so a chain that asks for any paragraph around it has a trail, and one that asks for
its parent has none. -/
theorem Complex.accepts_iff_trail_backtracks :
    ∃ t : Tree, Reachable t ∧ t.Within 5 root ∧
      (∃ rest, (linked [.type "span", .ordinal ⟨.eq, 0⟩] .descendant
        (linked [.type "p"] .child (only [.type "div"]))).Trail
          ⟨t, ⟨fun _ => .error ""⟩, root⟩ (5 :: rest)) ∧
      ¬ ∃ rest, (linked [.type "span"] .child
        (linked [.type "p"] .child (only [.type "div"]))).Trail
          ⟨t, ⟨fun _ => .error ""⟩, root⟩ (5 :: rest) := by
  have h₁ := Reachable.empty.appendElement root ⟨"div", .empty⟩ fun _ _ => by decide
  have h₂ := h₁.appendElement 1 ⟨"p", .empty⟩ fun _ _ => by decide
  have h₃ := h₂.appendElement 2 ⟨"section", .empty⟩ fun _ _ => by decide
  have h₄ := h₃.appendElement 3 ⟨"p", .empty⟩ fun _ _ => by decide
  have h₅ := h₄.appendElement 4 ⟨"span", .empty⟩ fun _ _ => by decide
  have hx := (h₅.forest.mem_ancestors.1 (show root ∈ Tree.ancestors _ 5 by decide)).within
  have hiff := @accepts_iff_trail ⟨_, ⟨fun _ => .error ""⟩, root⟩ 5 h₅ hx
  refine ⟨_, h₅, hx, ?_, ?_⟩
  · exact (hiff _).1 (by decide +kernel)
  · rw [← hiff]
    decide +kernel

end MarkupQuery
