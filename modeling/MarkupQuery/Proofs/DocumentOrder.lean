import MarkupQuery.Proofs.Walks
import Mathlib.Data.List.Sort
import Mathlib.Tactic.ByContra

/-!
# Document order

One node comes before another in document order if the other is below it, or if the two
lie in the subtrees of two children of one node and the first subtree is listed first.
In a forest this orders the nodes below any node, and the walk down meets them in that
order.  So a list of nodes in document order is known by its members alone.

* `Tree.Precedes` — document order, said through parents and lists of children;
* `Forest.eq_of_parted` — two nodes part at one node only;
* `Forest.pairwise_descendants` — the walk down goes in document order;
* `Forest.eq_of_pairwise_precedes` — the members of an ordered list determine it;
* `Forest.descendants_isInfix` — the walk down goes through a subtree in one piece.
-/

namespace MarkupQuery.Tree

variable {t : Tree} {x y a b c d p q : NodeId}

/-- A node comes before another one in document order. -/
def Precedes (t : Tree) (x y : NodeId) : Prop :=
  t.Below y x ∨ ∃ p a b, [a, b].Sublist (t.children p) ∧ t.Within x a ∧ t.Within y b

/-- In a list without repetition no two members come in both orders. -/
theorem not_sublist_swap {α : Type} {l : List α} {a b : α} (h : l.Nodup)
    (hab : [a, b].Sublist l) : ¬ [b, a].Sublist l := by
  intro hba
  induction l with
  | nil => cases hab
  | cons c l ih =>
      obtain ⟨hc, hl⟩ := List.nodup_cons.1 h
      cases hab with
      | cons _ hab =>
          cases hba with
          | cons _ hba => exact ih hl hab hba
          | cons_cons _ hba => exact hc (hab.subset (by simp))
      | cons_cons _ hab =>
          cases hba with
          | cons _ hba => exact hc (hba.subset (by simp))
          | cons_cons _ hba => exact hc (hab.subset (by simp))

/-- A node that is below another one is within one of its children. -/
theorem Forest.exists_child (h : t.Forest) (hx : t.Below x p) :
    ∃ c ∈ t.children p, t.Within x c := by
  obtain ⟨c, hxc, hcp⟩ := Relation.TransGen.tail'_iff.1 hx
  exact ⟨c, h.mem_children.2 hcp, hxc⟩

/-- A child of a node is not within another child of it. -/
theorem Forest.eq_of_within_child (h : t.Forest) (ha : a ∈ t.children p)
    (hb : b ∈ t.children p) (hab : t.Within a b) : a = b := by
  by_contra hne
  have hbelow : t.Below a b := below_of_within hab hne
  have hpb : t.Within p b := hbelow.parent_within (h.mem_children.1 ha)
  exact h.not_below_self p (.tail' hpb (h.mem_children.1 hb))

/-- A node is within one child of a node at most. -/
theorem Forest.child_unique (h : t.Forest) (ha : a ∈ t.children p) (hb : b ∈ t.children p)
    (hxa : t.Within x a) (hxb : t.Within x b) : a = b := by
  rcases within_or_within hxa hxb with hab | hba
  · exact h.eq_of_within_child ha hb hab
  · exact (h.eq_of_within_child hb ha hba).symm

/-- **Two nodes part at one node only**: if they are within different children of two
nodes, those two are the same. -/
theorem Forest.eq_of_parted (h : t.Forest) (ha : a ∈ t.children p) (hb : b ∈ t.children p)
    (hab : a ≠ b) (hc : c ∈ t.children q) (hd : d ∈ t.children q) (hcd : c ≠ d)
    (hxa : t.Within x a) (hyb : t.Within y b) (hxc : t.Within x c) (hyd : t.Within y d) :
    p = q := by
  -- below one of the children of a node, everything is within that child
  have hclose : ∀ {p q a b c d : NodeId}, t.Below p q → a ∈ t.children p → b ∈ t.children p →
      c ∈ t.children q → d ∈ t.children q → t.Within x a → t.Within y b → t.Within x c →
      t.Within y d → c = d := by
    intro p q a b c d hpq ha hb hc hd hxa hyb hxc hyd
    obtain ⟨e, he, hpe⟩ := h.exists_child hpq
    have hxe : t.Within x e := (hxa.tail (h.mem_children.1 ha)).trans hpe
    have hye : t.Within y e := (hyb.tail (h.mem_children.1 hb)).trans hpe
    exact (h.child_unique hc he hxc hxe).trans (h.child_unique he hd hye hyd)
  by_contra hne
  rcases within_or_within (hxa.tail (h.mem_children.1 ha)) (hxc.tail (h.mem_children.1 hc))
    with hpq | hqp
  · exact hcd (hclose (below_of_within hpq hne) ha hb hc hd hxa hyb hxc hyd)
  · exact hab (hclose (below_of_within hqp (Ne.symm hne)) hc hd ha hb hxc hyd hxa hyb)

namespace Forest

/-- Two children listed one after the other are different. -/
theorem ne_of_sublist (h : t.Forest) (hab : [a, b].Sublist (t.children p)) : a ≠ b := by
  have hnodup : [a, b].Nodup := hab.nodup (h.nodup_children p)
  simpa using hnodup

/-- Of nodes in different subtrees none is below the other. -/
theorem not_below_of_parted (h : t.Forest) (hab : [a, b].Sublist (t.children p))
    (hxa : t.Within x a) (hyb : t.Within y b) : ¬ t.Below x y ∧ ¬ t.Below y x := by
  have ha : a ∈ t.children p := hab.subset (by simp)
  have hb : b ∈ t.children p := hab.subset (by simp)
  have hne : a ≠ b := h.ne_of_sublist hab
  constructor
  · intro hxy
    exact hne (h.child_unique ha hb hxa (hxy.within.trans hyb))
  · intro hyx
    exact hne (h.child_unique ha hb (hyx.within.trans hxa) hyb)

/-- **Document order goes one way.** -/
theorem not_precedes_of_precedes (h : t.Forest) (hxy : t.Precedes x y) : ¬ t.Precedes y x := by
  intro hyx
  rcases hxy with hbelow | ⟨p, a, b, hab, hxa, hyb⟩
  · rcases hyx with hbelow' | ⟨q, c, d, hcd, hyc, hxd⟩
    · exact h.not_below_self x (hbelow'.trans hbelow)
    · exact (h.not_below_of_parted hcd hyc hxd).1 hbelow
  · rcases hyx with hbelow' | ⟨q, c, d, hcd, hyc, hxd⟩
    · exact (h.not_below_of_parted hab hxa hyb).1 hbelow'
    · -- they part at one node, where the two subtrees cannot come in both orders
      have ha : a ∈ t.children p := hab.subset (by simp)
      have hb : b ∈ t.children p := hab.subset (by simp)
      have hc : c ∈ t.children q := hcd.subset (by simp)
      have hd : d ∈ t.children q := hcd.subset (by simp)
      obtain rfl : p = q := h.eq_of_parted ha hb (h.ne_of_sublist hab) hd hc
        (h.ne_of_sublist hcd).symm hxa hyb hxd hyc
      obtain rfl : a = d := h.child_unique ha hd hxa hxd
      obtain rfl : b = c := h.child_unique hb hc hyb hyc
      exact not_sublist_swap (h.nodup_children p) hab hcd

/-! ### Lists in document order -/

theorem nodup_of_pairwise_precedes (h : t.Forest) {ids : List NodeId}
    (hids : ids.Pairwise t.Precedes) : ids.Nodup := by
  refine hids.imp fun {x y} hxy heq => ?_
  subst heq
  exact h.not_precedes_of_precedes hxy hxy

/-- **The members of an ordered list determine it.** -/
theorem eq_of_pairwise_precedes (h : t.Forest) {ids ids' : List NodeId}
    (hids : ids.Pairwise t.Precedes) (hids' : ids'.Pairwise t.Precedes)
    (hmem : ∀ x, x ∈ ids ↔ x ∈ ids') : ids = ids' := by
  have hperm : ids.Perm ids' :=
    (List.perm_ext_iff_of_nodup (h.nodup_of_pairwise_precedes hids)
      (h.nodup_of_pairwise_precedes hids')).2 hmem
  refine hperm.eq_of_pairwise ?_ hids hids'
  intro x y _ _ hxy hyx
  exact absurd hyx (h.not_precedes_of_precedes hxy)

/-- Children are listed in document order. -/
theorem pairwise_children (t : Tree) (p : NodeId) : (t.children p).Pairwise t.Precedes :=
  List.pairwise_iff_forall_sublist.2 fun {a b} hab => .inr ⟨p, a, b, hab, .refl, .refl⟩

/-- One level of a preorder, and what is below it, comes in document order. -/
theorem pairwise_preorder (h : t.Forest) (depth : Nat) (p : NodeId) :
    (t.preorder depth (t.children p)).Pairwise t.Precedes := by
  induction depth generalizing p with
  | zero => simp [preorder]
  | succ depth ih =>
      have hwithin : ∀ {c z}, z ∈ c :: t.preorder depth (t.children c) → t.Within z c := by
        intro c z hz
        rcases List.mem_cons.1 hz with rfl | hz
        · exact .refl
        · exact (h.below_of_mem_preorder hz).within
      rw [preorder, List.pairwise_flatMap]
      constructor
      · intro c _
        exact List.pairwise_cons.2 ⟨fun z hz => .inl (h.below_of_mem_preorder hz), ih c⟩
      · refine List.pairwise_iff_forall_sublist.2 fun {a b} hab x hx y hy => ?_
        exact .inr ⟨p, a, b, hab, hwithin hx, hwithin hy⟩

/-- **The walk down goes in document order.** -/
theorem pairwise_descendants (h : t.Forest) (x : NodeId) :
    (t.descendants x).Pairwise t.Precedes :=
  h.pairwise_preorder t.size x

/-- Going deeper than there are nodes changes nothing. -/
theorem preorder_eq_descendants (h : t.Forest) {depth : Nat} (hdepth : t.size ≤ depth)
    (x : NodeId) : t.preorder depth (t.children x) = t.descendants x := by
  refine h.eq_of_pairwise_precedes (h.pairwise_preorder depth x) (h.pairwise_descendants x) ?_
  intro y
  rw [h.mem_preorder_iff hdepth, h.mem_descendants]

/-- The walk down from a node goes through its children, each with what is below it. -/
theorem descendants_eq_flatMap (h : t.Forest) (x : NodeId) :
    t.descendants x = (t.children x).flatMap fun c => c :: t.descendants c := by
  rw [← h.preorder_eq_descendants (Nat.le_succ _) x, preorder]
  rfl

/-- **Subtrees come in one piece:** the walk down from a node goes through a node below it and
then through everything below that. -/
theorem descendants_isInfix (h : t.Forest) (hx : t.Below x p) :
    x :: t.descendants x <:+: t.descendants p := by
  have hchild : ∀ {c q}, t.Under c q → c :: t.descendants c <:+: t.descendants q := by
    intro c q hcq
    obtain ⟨before, after, hsplit⟩ := List.append_of_mem (h.mem_children.2 hcq)
    rw [h.descendants_eq_flatMap q, hsplit, List.flatMap_append, List.flatMap_cons]
    exact ⟨_, _, by rw [List.append_assoc]⟩
  induction hx with
  | single hlink => exact hchild hlink
  | tail _ hlink ih => exact ih.trans ((List.suffix_cons _ _).isInfix.trans (hchild hlink))

end Forest

end MarkupQuery.Tree
