import MarkupQuery.Proofs.Links

/-!
# Forests

The links of a tree say the same thing several times over: a parent and its children
name each other, and neighbours among the children name each other too.  In a forest
they agree, and going up from a node comes to an end.

* `Tree.Forest`, `Tree.LinksInRange` — the links agree, and lead to nodes;
* `Forest.not_below_self`, `Forest.ne_of_below` — no node is below itself;
* `Forest.appended` — appending a free node outside of what it holds keeps a forest.
-/

namespace MarkupQuery.Tree

variable {t t' : Tree} {parent child : NodeId}

/-- The links of a tree agree. -/
structure Forest (t : Tree) : Prop where
  inhabited : 0 < t.size
  parent?_root : t.parent? root = none
  /-- Parents and children name each other. -/
  mem_children : ∀ {c p}, c ∈ t.children p ↔ t.parent? c = some p
  nodup_children : ∀ p, (t.children p).Nodup
  /-- Among the children of a node, exactly the neighbours are linked. -/
  siblings : ∀ {p c before after}, t.children p = before ++ c :: after →
    t.prev? c = before.getLast? ∧ t.next? c = after.head?
  alone : ∀ {x}, t.parent? x = none → t.prev? x = none ∧ t.next? x = none
  /-- Going up from a node ends. -/
  grounded : ∀ x, ∃ r, t.Within x r ∧ t.parent? r = none

/-- Every id that is stored in a link is that of a node. -/
structure LinksInRange (t : Tree) : Prop where
  parent? : ∀ {x p}, t.parent? x = some p → p < t.size
  children : ∀ {x c}, c ∈ t.children x → c < t.size
  next? : ∀ {x y}, t.next? x = some y → y < t.size
  prev? : ∀ {x y}, t.prev? x = some y → y < t.size

namespace Forest

/-! ### What agreeing links entail -/

theorem parent?_lt (h : t.Forest) {c p : NodeId} (hc : t.parent? c = some p) : p < t.size :=
  lt_size_of_mem_children (h.mem_children.2 hc)

theorem lt_of_mem_children (h : t.Forest) {c p : NodeId} (hc : c ∈ t.children p) :
    c < t.size :=
  lt_size_of_parent? (h.mem_children.1 hc)

/-- A free node is nobody's child. -/
theorem not_mem_children (h : t.Forest) {c : NodeId} (hc : t.parent? c = none) (p : NodeId) :
    c ∉ t.children p := by
  intro hmem
  rw [h.mem_children.1 hmem] at hc
  cases hc

/-- A node that has a sibling has a parent, among whose children both are. -/
theorem exists_siblings (h : t.Forest) {x y : NodeId}
    (hy : t.prev? x = some y ∨ t.next? x = some y) : ∃ p, x ∈ t.children p ∧ y ∈ t.children p := by
  cases hp : t.parent? x with
  | none =>
    obtain ⟨hprev, hnext⟩ := h.alone hp
    simp [hprev, hnext] at hy
  | some p =>
    have hx : x ∈ t.children p := h.mem_children.2 hp
    obtain ⟨before, after, hsplit⟩ := List.append_of_mem hx
    obtain ⟨hprev, hnext⟩ := h.siblings hsplit
    refine ⟨p, hx, ?_⟩
    rw [hsplit]
    rcases hy with hy | hy
    · exact List.mem_append_left _ (List.mem_of_getLast? (hprev ▸ hy))
    · exact List.mem_append_right _ (List.mem_cons_of_mem _ (List.mem_of_head? (hnext ▸ hy)))

theorem linksInRange (h : t.Forest) : t.LinksInRange where
  parent? := h.parent?_lt
  children := h.lt_of_mem_children
  next? := fun hy =>
    let ⟨_, _, hmem⟩ := h.exists_siblings (.inr hy)
    h.lt_of_mem_children hmem
  prev? := fun hy =>
    let ⟨_, _, hmem⟩ := h.exists_siblings (.inl hy)
    h.lt_of_mem_children hmem

/-- No node is below itself. -/
theorem not_below_self (h : t.Forest) (x : NodeId) : ¬ t.Below x x := by
  obtain ⟨r, hxr, hr⟩ := h.grounded x
  induction hxr using Relation.ReflTransGen.head_induction_on with
  | refl =>
    intro hloop
    obtain ⟨y, hry, -⟩ := Relation.TransGen.head'_iff.1 hloop
    rw [Under, hr] at hry
    cases hry
  | @head x y hxy _ ih =>
    -- a way from `x` back to `x` starts with the only step up, so it turns into one at `y`
    intro hloop
    obtain ⟨z, hxz, hzx⟩ := Relation.TransGen.head'_iff.1 hloop
    obtain rfl : y = z := Option.some.inj (hxy.symm.trans hxz)
    exact ih (.tail' hzx hxy)

theorem ne_of_below (h : t.Forest) {x y : NodeId} (hxy : t.Below x y) : x ≠ y := by
  rintro rfl
  exact h.not_below_self x hxy

/-! ### One step -/

theorem empty : Tree.empty.Forest := by
  have hparent : ∀ x, Tree.empty.parent? x = none := fun x => by cases x <;> rfl
  have hchildren : ∀ x, Tree.empty.children x = [] := fun x => by cases x <;> rfl
  refine ⟨by decide, rfl, ?_, ?_, ?_, ?_, ?_⟩
  · intro c p
    simp [hparent, hchildren]
  · intro p
    simp [hchildren]
  · intro p c before after hsplit
    simp [hchildren] at hsplit
  · intro x _
    cases x <;> exact ⟨rfl, rfl⟩
  · intro x
    exact ⟨x, .refl, hparent x⟩

theorem alloc (h : t.Forest) (kind : NodeKind) : (t.alloc kind).1.Forest := by
  have hunder : (t.alloc kind).1.Under = t.Under := by
    funext c p
    simp [Under]
  refine ⟨by simp, by simpa using h.parent?_root, ?_, ?_, ?_, ?_, ?_⟩
  · intro c p
    simpa using h.mem_children
  · simpa using h.nodup_children
  · intro p c before after
    simpa using h.siblings
  · intro x
    simpa using h.alone
  · simpa [Within, hunder] using h.grounded

/-- The neighbours among the children to which one was added. -/
theorem siblings_appended (h : t.Forest) (ha : t.Appended t' parent child)
    (hfree : t.parent? child = none) {c : NodeId} {before after : List NodeId}
    (hsplit : t.children parent ++ [child] = before ++ c :: after) :
    t'.prev? c = before.getLast? ∧ t'.next? c = after.head? := by
  have hnew : child ∉ t.children parent := h.not_mem_children hfree parent
  rcases List.eq_nil_or_concat after with rfl | ⟨after, last, rfl⟩
  · -- the child itself
    obtain ⟨rfl, hc⟩ := List.append_inj' hsplit rfl
    obtain rfl : child = c := by simpa using hc
    have hlast : (t.children parent).getLast? ≠ some child :=
      fun hl => hnew (List.mem_of_getLast? hl)
    rw [ha.prev?, ha.next?, if_pos rfl, if_neg hlast, (h.alone hfree).2]
    exact ⟨rfl, rfl⟩
  · -- one of the children before it
    have hold : t.children parent = before ++ c :: after ∧ child = last := by
      have hshift : before ++ c :: after.concat last = (before ++ c :: after) ++ [last] := by
        simp
      rw [hshift] at hsplit
      obtain ⟨hfront, hlast⟩ := List.append_inj' hsplit rfl
      exact ⟨hfront, by simpa using hlast⟩
    obtain ⟨hold, rfl⟩ := hold
    obtain ⟨hprev, hnext⟩ := h.siblings hold
    have hne : c ≠ child := by
      intro he
      exact hnew (by simp [hold, he])
    rw [ha.prev?, ha.next?, if_neg hne, hprev, hnext]
    refine ⟨rfl, ?_⟩
    cases after with
    | nil => simp [hold]
    | cons a rest =>
      have hnodup : c ∉ a :: rest := by
        have := h.nodup_children parent
        rw [hold] at this
        exact (List.nodup_cons.1 (List.nodup_append.1 this).2.1).1
      have hlast : (t.children parent).getLast? ≠ some c := by
        intro hl
        have hafter : (a :: rest).getLast? = some c := by
          simpa [hold, List.getLast?_append, List.getLast?_cons_cons,
            List.getLast?_cons] using hl
        exact hnodup (List.mem_of_getLast? hafter)
      rw [if_neg hlast]
      simp

/-- **One append.**  A free node that is appended to a node outside of what it holds
leaves a forest. -/
theorem appended (h : t.Forest) (ha : t.Appended t' parent child) (hroot : child ≠ root)
    (hfree : t.parent? child = none) (hout : ¬ t.Within parent child) : t'.Forest := by
  have hnew : ∀ p, child ∉ t.children p := h.not_mem_children hfree
  refine ⟨?_, ?_, ?_, ?_, ?_, ?_, ?_⟩
  · rw [ha.size]
    exact h.inhabited
  · rw [ha.parent?, if_neg (Ne.symm hroot)]
    exact h.parent?_root
  · intro c p
    rw [ha.parent?, ha.children]
    by_cases hc : c = child
    · subst hc
      by_cases hp : p = parent
      · simp [hp]
      · simp [hp, hnew, Ne.symm hp]
    · by_cases hp : p = parent
      · subst hp
        simp [hc, h.mem_children]
      · simp [hc, hp, h.mem_children]
  · intro p
    rw [ha.children]
    by_cases hp : p = parent
    · have hdisjoint : ∀ a ∈ t.children parent, ¬ a = child :=
        fun a hmem he => hnew parent (he ▸ hmem)
      simpa [hp, List.nodup_append, h.nodup_children] using hdisjoint
    · simpa [hp] using h.nodup_children p
  · intro p c before after hsplit
    rw [ha.children] at hsplit
    by_cases hp : p = parent
    · rw [if_pos hp] at hsplit
      exact h.siblings_appended ha hfree hsplit
    · rw [if_neg hp] at hsplit
      have hmem : c ∈ t.children p := by simp [hsplit]
      have hne : c ≠ child := fun he => hnew p (he ▸ hmem)
      have hlast : (t.children parent).getLast? ≠ some c := by
        intro hl
        have hother := h.mem_children.1 (List.mem_of_getLast? hl)
        rw [h.mem_children.1 hmem] at hother
        exact hp (Option.some.inj hother)
      rw [ha.prev?, ha.next?, if_neg hne, if_neg hlast]
      exact h.siblings hsplit
  · intro x hx
    rw [ha.parent?] at hx
    by_cases hc : x = child
    · rw [if_pos hc] at hx
      cases hx
    · rw [if_neg hc] at hx
      have hlast : (t.children parent).getLast? ≠ some x :=
        fun hl => h.not_mem_children hx parent (List.mem_of_getLast? hl)
      rw [ha.prev?, ha.next?, if_neg hc, if_neg hlast]
      exact h.alone hx
  · -- what ended at the child goes on above the new parent, and does not come back
    intro x
    obtain ⟨r, hxr, hr⟩ := h.grounded x
    by_cases hrc : r = child
    · obtain ⟨s, hps, hs⟩ := h.grounded parent
      have hsc : s ≠ child := fun he => hout (he ▸ hps)
      refine ⟨s, ?_, ?_⟩
      · exact ((hrc ▸ ha.within hfree hxr).tail ha.under).trans (ha.within hfree hps)
      · rw [ha.parent?, if_neg hsc]
        exact hs
    · refine ⟨r, ha.within hfree hxr, ?_⟩
      rw [ha.parent?, if_neg hrc]
      exact hr

/-- In a forest, appending a free node succeeds. -/
theorem appendChild_appended (h : t.Forest) (hparent : parent < t.size)
    (hchild : child < t.size) (hfree : t.parent? child = none) :
    (t.appendChild parent child).2 = .ok () ∧
      t.Appended (t.appendChild parent child).1 parent child :=
  Tree.appendChild_appended hparent hchild (h.alone hfree).1
    fun _ hl => h.lt_of_mem_children (List.mem_of_getLast? hl)

theorem appendChild (h : t.Forest) (hparent : parent < t.size) (hchild : child < t.size)
    (hroot : child ≠ root) (hfree : t.parent? child = none)
    (hout : ¬ t.Within parent child) : (t.appendChild parent child).1.Forest :=
  h.appended (h.appendChild_appended hparent hchild hfree).2 hroot hfree hout

end Forest

end MarkupQuery.Tree
