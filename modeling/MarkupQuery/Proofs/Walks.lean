import MarkupQuery.Proofs.Forest
import MarkupQuery.Tree.Walk

/-!
# Walks in a forest

A walk takes at most as many steps as the tree has nodes.  In a forest that is always
enough: no walk meets a node twice, so it has come to its end before the steps run out.
What the walks find can then be said through the links alone.

* `Forest.mem_ancestors` — the ancestors are the nodes that a node is below of;
* `Forest.mem_descendants` — the descendants are the nodes below a node;
* `Forest.precedingSiblings_eq_reverse` — the earlier siblings are the children listed before,
  `Tree.siblingsBefore`;
* `Forest.precedingElements_eq` — the same for elements, by `Tree.elementsBefore`.
-/

namespace MarkupQuery.Tree

variable {t : Tree} {x y : NodeId}

/-! ### Following a link -/

section Follow

variable {step : NodeId → Option NodeId}

/-- The nodes met on the way come one after the other. -/
theorem transGen_of_mem_follow {fuel : Nat} (h : y ∈ follow step fuel x) :
    Relation.TransGen (fun a b => step a = some b) x y := by
  induction fuel generalizing x with
  | zero => simp [follow] at h
  | succ fuel ih =>
    cases hz : step x with
    | none => simp [follow, hz] at h
    | some z =>
      simp only [follow, hz, List.mem_cons] at h
      rcases h with rfl | h
      · exact .single hz
      · exact .head hz (ih h)

/-- Of two nodes met on the way, the second comes after the first. -/
theorem pairwise_cons_follow (step : NodeId → Option NodeId) (fuel : Nat) (x : NodeId) :
    (x :: follow step fuel x).Pairwise (Relation.TransGen fun a b => step a = some b) := by
  induction fuel generalizing x with
  | zero => simp [follow]
  | succ fuel ih =>
    refine List.pairwise_cons.2 ⟨fun y hy => transGen_of_mem_follow hy, ?_⟩
    cases hz : step x with
    | none => simp [follow, hz]
    | some z => simpa only [follow, hz] using ih z

/-- What is met at a place on the way is one step from what is met before it. -/
theorem step_of_follow_getElem? {fuel k : Nat} (h : (follow step fuel x)[k]? = some y) :
    ∃ z, (x :: follow step fuel x)[k]? = some z ∧ step z = some y := by
  induction fuel generalizing x k with
  | zero => simp [follow] at h
  | succ fuel ih =>
    cases hw : step x with
    | none => simp [follow, hw] at h
    | some w =>
      simp only [follow, hw] at h ⊢
      cases k with
      | zero => exact ⟨x, rfl, by simpa [hw] using h⟩
      | succ k => exact ih h

/-- A way that ended before the steps ran out has met everything. -/
theorem mem_follow_of_transGen {fuel : Nat} (hlen : (follow step fuel x).length < fuel)
    (h : Relation.TransGen (fun a b => step a = some b) x y) : y ∈ follow step fuel x := by
  induction fuel generalizing x with
  | zero => omega
  | succ fuel ih =>
    obtain ⟨z, hxz, hzy⟩ := Relation.TransGen.head'_iff.1 h
    simp only [follow, hxz, List.length_cons, Nat.add_lt_add_iff_right] at hlen ⊢
    rcases Relation.reflTransGen_iff_eq_or_transGen.1 hzy with rfl | hzy
    · exact List.mem_cons_self
    · exact List.mem_cons_of_mem _ (ih hlen hzy)

/-- A way that ended before the steps ran out stays the same with one step more. -/
theorem follow_succ_of_length_lt {fuel : Nat} (hlen : (follow step fuel x).length < fuel) :
    follow step (fuel + 1) x = follow step fuel x := by
  induction fuel generalizing x with
  | zero => omega
  | succ fuel ih =>
    rw [follow, follow]
    cases hz : step x with
    | none => rfl
    | some z =>
      simp only [follow, hz, List.length_cons, Nat.add_lt_add_iff_right] at hlen
      simp only [ih hlen]

end Follow

/-- A list of different nodes is no longer than the tree. -/
theorem length_le_size {ids : List NodeId} (hnodup : ids.Nodup) (hlt : ∀ id ∈ ids, id < t.size) :
    ids.length ≤ t.size := by
  simpa using hnodup.length_le_of_subset fun id hid => List.mem_range.2 (hlt id hid)

/-! ### Up -/

/-- The ancestors of a node are listed from below to above. -/
theorem pairwise_ancestors (t : Tree) (x : NodeId) : (t.ancestors x).Pairwise t.Below :=
  (List.pairwise_cons.1 (pairwise_cons_follow t.parent? t.size x)).2

namespace Forest

/-- The ancestors of a node are fewer than the nodes. -/
theorem length_ancestors_lt (h : t.Forest) (x : NodeId) : (t.ancestors x).length < t.size := by
  by_cases hx : x < t.size
  · have hnodup : (x :: t.ancestors x).Nodup :=
      (pairwise_cons_follow t.parent? t.size x).imp h.ne_of_below
    have hlt : ∀ y ∈ x :: t.ancestors x, y < t.size := by
      intro y hy
      rcases List.mem_cons.1 hy with rfl | hy
      · exact hx
      · obtain ⟨z, -, hzy⟩ := Relation.TransGen.tail'_iff.1 (transGen_of_mem_follow hy)
        exact h.parent?_lt hzy
    exact length_le_size hnodup hlt
  · have hnone : t.parent? x = none := by
      simp [parent?, get?_eq_none_iff.2 (Nat.not_lt.1 hx)]
    have hnil : t.ancestors x = [] := by
      unfold ancestors
      cases t.size <;> simp [follow, hnone]
    simpa [hnil] using h.inhabited

/-- The ancestors of a node are its parent and the ancestors of that. -/
theorem ancestors_eq_cons (h : t.Forest) {p : NodeId} (hp : t.parent? x = some p) :
    t.ancestors x = p :: t.ancestors p := by
  have hlen := h.length_ancestors_lt x
  unfold ancestors at hlen ⊢
  cases hsize : t.size with
  | zero => omega
  | succ fuel =>
    simp only [hsize, follow, hp, List.length_cons, Nat.add_lt_add_iff_right] at hlen
    rw [follow_succ_of_length_lt hlen]
    simp only [follow, hp]

theorem mem_ancestors (h : t.Forest) : y ∈ t.ancestors x ↔ t.Below x y :=
  ⟨transGen_of_mem_follow, mem_follow_of_transGen (h.length_ancestors_lt x)⟩

theorem isBelow_iff (h : t.Forest) : t.isBelow x y = true ↔ t.Below x y := by
  rw [isBelow, List.contains_iff_mem, h.mem_ancestors]

end Forest

/-! ### Down -/

/-- The nodes of a preorder are within those that it starts from. -/
theorem exists_within_of_mem_preorder {depth : Nat} {ids : List NodeId} (h : t.Forest)
    (hy : y ∈ t.preorder depth ids) : ∃ id ∈ ids, t.Within y id := by
  induction depth generalizing ids with
  | zero => simp [preorder] at hy
  | succ depth ih =>
    simp only [preorder, List.mem_flatMap, List.mem_cons] at hy
    obtain ⟨id, hid, rfl | hy⟩ := hy
    · exact ⟨y, hid, .refl⟩
    · obtain ⟨c, hc, hyc⟩ := ih hy
      exact ⟨id, hid, hyc.tail (h.mem_children.1 hc)⟩

/-- One level of a preorder: the children, and what is below them. -/
theorem mem_preorder_succ {z : NodeId} {depth : Nat} (hz : z ∈ t.children x)
    (hy : z = y ∨ y ∈ t.preorder depth (t.children z)) :
    y ∈ t.preorder (depth + 1) (t.children x) := by
  refine List.mem_flatMap.2 ⟨z, hz, ?_⟩
  rcases hy with rfl | hy
  · exact List.mem_cons_self
  · exact List.mem_cons_of_mem _ hy

/-- What is reached by going up fewer steps than the preorder is deep is in it. -/
theorem mem_preorder_of_follow {fuel depth k : Nat} (h : t.Forest) (hk : k < depth)
    (hx : (follow t.parent? fuel y)[k]? = some x) : y ∈ t.preorder depth (t.children x) := by
  induction k generalizing x depth with
  | zero =>
    obtain ⟨z, hz, hlink⟩ := step_of_follow_getElem? hx
    obtain ⟨depth, rfl⟩ : ∃ d, depth = d + 1 := ⟨depth - 1, by omega⟩
    exact mem_preorder_succ (h.mem_children.2 hlink) (.inl (by simpa using hz.symm))
  | succ k ih =>
    obtain ⟨z, hz, hlink⟩ := step_of_follow_getElem? hx
    obtain ⟨depth, rfl⟩ : ∃ d, depth = d + 1 := ⟨depth - 1, by omega⟩
    exact mem_preorder_succ (h.mem_children.2 hlink) (.inr (ih (by omega) (by simpa using hz)))

namespace Forest

/-- What is met on the way down from a node is below it. -/
theorem below_of_mem_preorder {depth : Nat} (h : t.Forest)
    (hy : y ∈ t.preorder depth (t.children x)) : t.Below y x := by
  obtain ⟨c, hc, hyc⟩ := exists_within_of_mem_preorder h hy
  exact .tail' hyc (h.mem_children.1 hc)

/-- A preorder that is as deep as there are nodes meets everything below a node. -/
theorem mem_preorder_iff (h : t.Forest) {depth : Nat} (hdepth : t.size ≤ depth) :
    y ∈ t.preorder depth (t.children x) ↔ t.Below y x := by
  constructor
  · intro hy
    exact h.below_of_mem_preorder hy
  · intro hy
    obtain ⟨k, hk, hx⟩ := List.getElem_of_mem (h.mem_ancestors.2 hy)
    have hlt : k < depth :=
      Nat.lt_of_lt_of_le (Nat.lt_trans hk (h.length_ancestors_lt y)) hdepth
    exact mem_preorder_of_follow h hlt (List.getElem?_eq_some_iff.2 ⟨hk, hx⟩)

theorem mem_descendants (h : t.Forest) : y ∈ t.descendants x ↔ t.Below y x :=
  h.mem_preorder_iff (Nat.le_refl _)

/-- A node is within another one if it is that one or the walk down from it meets it. -/
theorem within_iff_mem (h : t.Forest) : t.Within y x ↔ y ∈ x :: t.descendants x := by
  rw [List.mem_cons, h.mem_descendants, Within, Relation.reflTransGen_iff_eq_or_transGen,
    eq_comm]
  rfl

/-! ### Back -/

/-- Following the sibling links back lists the children before, nearest first. -/
theorem follow_prev? (h : t.Forest) {p : NodeId} {fuel : Nat} {before after : List NodeId}
    (hsplit : t.children p = before ++ x :: after) (hlen : before.length ≤ fuel) :
    follow t.prev? fuel x = before.reverse := by
  induction fuel generalizing x before after with
  | zero => simp [follow, List.eq_nil_of_length_eq_zero (Nat.le_zero.1 hlen)]
  | succ fuel ih =>
    have hprev := (h.siblings hsplit).1
    rcases List.eq_nil_or_concat before with rfl | ⟨front, y, rfl⟩
    · simp [follow, hprev]
    · have hprev' : t.prev? x = some y := by simpa using hprev
      simp only [follow, hprev']
      rw [ih (by simpa using hsplit) (by simpa using hlen)]
      simp

/-- Fewer nodes stand before a child than the tree has nodes. -/
theorem length_before_lt (h : t.Forest) {p : NodeId} {before after : List NodeId}
    (hsplit : t.children p = before ++ x :: after) : before.length < t.size := by
  have hle : (t.children p).length ≤ t.size :=
    length_le_size (h.nodup_children p) fun _ hc => h.lt_of_mem_children hc
  simp only [hsplit, List.length_append, List.length_cons] at hle
  omega

theorem precedingSiblings_eq (h : t.Forest) {p : NodeId} {before after : List NodeId}
    (hsplit : t.children p = before ++ x :: after) : t.precedingSiblings x = before.reverse :=
  h.follow_prev? hsplit (Nat.le_of_lt (h.length_before_lt hsplit))

end Forest

/-- A node is not among those that are listed before it. -/
theorem Forest.notMem_of_children_eq (h : t.Forest) {p : NodeId} {before after : List NodeId}
    (hsplit : t.children p = before ++ x :: after) : x ∉ before := by
  have hnodup := h.nodup_children p
  rw [hsplit] at hnodup
  exact fun hx => (List.nodup_append.1 hnodup).2.2 x hx x List.mem_cons_self rfl

/-- The nodes that stand before a node among the children of its parent, in order. -/
def siblingsBefore (t : Tree) (x : NodeId) : List NodeId :=
  match t.parent? x with
  | none => []
  | some p => (t.children p).takeWhile (· != x)

/-- The elements that stand before a node among the children of its parent, in order. -/
def elementsBefore (t : Tree) (x : NodeId) : List NodeId :=
  match t.parent? x with
  | none => []
  | some p => ((t.children p).takeWhile (· != x)).filter t.isElement

theorem elementsBefore_eq_filter (t : Tree) (x : NodeId) :
    t.elementsBefore x = (t.siblingsBefore x).filter t.isElement := by
  unfold elementsBefore siblingsBefore
  split <;> rfl

/-- What stands before a node has the same parent. -/
theorem Forest.parent?_of_mem_elementsBefore (h : t.Forest) (hy : y ∈ t.elementsBefore x) :
    t.parent? y = t.parent? x := by
  unfold elementsBefore at hy
  split at hy
  · cases hy
  · next p hp =>
    rw [hp]
    exact h.mem_children.1 (List.takeWhile_subset _ (List.mem_filter.1 hy).1)

/-- What stands before a node that is below another one is below that one, too. -/
theorem Below.of_mem_elementsBefore {s : NodeId} (h : t.Forest) (hx : t.Below x s)
    (hy : y ∈ t.elementsBefore x) : t.Below y s := by
  obtain ⟨p, hxp, hps⟩ := Relation.TransGen.head'_iff.1 hx
  have hyp : t.parent? y = some p := (h.parent?_of_mem_elementsBefore hy).trans hxp
  exact .head' hyp hps

/-- **Back to the front.**  The sibling links lead to the nodes that stand before a node in
the list of children, the nearest first. -/
theorem Forest.precedingSiblings_eq_reverse (h : t.Forest) (x : NodeId) :
    t.precedingSiblings x = (t.siblingsBefore x).reverse := by
  unfold siblingsBefore
  cases hp : t.parent? x with
  | none =>
    unfold precedingSiblings
    cases t.size <;> simp [follow, (h.alone hp).1]
  | some p =>
    obtain ⟨before, after, hsplit⟩ := List.append_of_mem (h.mem_children.2 hp)
    have hnew : ∀ y ∈ before, (y != x) = true := by
      intro y hy
      rw [bne_iff_ne]
      rintro rfl
      exact h.notMem_of_children_eq hsplit hy
    have hfront : (t.children p).takeWhile (· != x) = before := by
      rw [hsplit, List.takeWhile_append_of_pos hnew]
      simp
    simp only [h.precedingSiblings_eq hsplit, hfront]

/-- The same for the elements among them. -/
theorem Forest.precedingElements_eq (h : t.Forest) (x : NodeId) :
    t.precedingElements x = (t.elementsBefore x).reverse := by
  rw [precedingElements, h.precedingSiblings_eq_reverse, List.filter_reverse,
    elementsBefore_eq_filter]

end MarkupQuery.Tree
