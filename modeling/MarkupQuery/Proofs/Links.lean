import MarkupQuery.Tree.Basic
import Mathlib.Logic.Relation

/-!
# Links

What allocating and appending do to the links of a tree.  A node has five kinds of
link (`parent?`, `children`, `next?`, `prev?`, and the ancestry that follows from the
first), and everything that is said later about trees is said through them.

* `Tree.parent?_alloc` and its fellows — allocating changes no link of any id;
* `Tree.appendChild_dangling` — appending to no node changes nothing;
* `Tree.Appended` — all that a successful append does.
-/

namespace MarkupQuery.Tree

variable {t t' : Tree}

/-- A node is directly below another one. -/
def Under (t : Tree) (c p : NodeId) : Prop := t.parent? c = some p

/-- A node is strictly below another one. -/
def Below (t : Tree) (x a : NodeId) : Prop := Relation.TransGen t.Under x a

/-- A node is another one or is below it. -/
def Within (t : Tree) (x a : NodeId) : Prop := Relation.ReflTransGen t.Under x a

theorem Below.within {x a : NodeId} (h : t.Below x a) : t.Within x a := h.to_reflTransGen

theorem below_of_within {x a : NodeId} (h : t.Within x a) (hne : x ≠ a) : t.Below x a := by
  rcases Relation.reflTransGen_iff_eq_or_transGen.1 h with he | h
  · exact absurd he.symm hne
  · exact h

/-- The parent of a node below another one is that one or is below it. -/
theorem Below.parent_within {x a p : NodeId} (h : t.Below x a) (hp : t.parent? x = some p) :
    t.Within p a := by
  obtain ⟨q, hxq, hqa⟩ := Relation.TransGen.head'_iff.1 h
  obtain rfl : p = q := Option.some.inj (hp.symm.trans hxq)
  exact hqa

/-- Of two nodes above a third one, one is above the other or they are the same. -/
theorem within_or_within {x a b : NodeId} (ha : t.Within x a) (hb : t.Within x b) :
    t.Within a b ∨ t.Within b a :=
  Relation.ReflTransGen.total_of_right_unique
    (fun _ _ _ hp hq => Option.some.inj (hp.symm.trans hq)) ha hb

/-! ### Reading -/

theorem get?_eq_none_iff {x : NodeId} : t.get? x = none ↔ t.size ≤ x := by
  simp [get?, size]

theorem exists_get? {x : NodeId} (h : x < t.size) : ∃ n, t.get? x = some n := by
  cases hn : t.get? x with
  | none =>
    exact absurd h (Nat.not_lt.2 (get?_eq_none_iff.1 hn))
  | some n => exact ⟨n, rfl⟩

theorem lt_size_of_get? {x : NodeId} {n : Node} (h : t.get? x = some n) : x < t.size := by
  by_cases hx : x < t.size
  · exact hx
  · rw [get?_eq_none_iff.2 (Nat.not_lt.1 hx)] at h
    cases h

/-- Only a node has a parent. -/
theorem lt_size_of_parent? {c p : NodeId} (h : t.parent? c = some p) : c < t.size := by
  obtain ⟨n, hn, -⟩ := Option.bind_eq_some_iff.1 h
  exact lt_size_of_get? hn

/-- Only a node has children. -/
theorem lt_size_of_mem_children {c p : NodeId} (h : c ∈ t.children p) : p < t.size := by
  cases hn : t.get? p with
  | none => simp [children, hn] at h
  | some n => exact lt_size_of_get? hn

/-! ### Allocating -/

@[simp] theorem size_alloc (kind : NodeKind) : (t.alloc kind).1.size = t.size + 1 := by
  simp [alloc, size]

@[simp] theorem alloc_snd (kind : NodeKind) : (t.alloc kind).2 = t.size := rfl

theorem get?_alloc (kind : NodeKind) (x : NodeId) :
    (t.alloc kind).1.get? x = if x = t.size then some (Node.detached kind) else t.get? x := by
  by_cases hx : x = t.size
  · simp [alloc, get?, size, hx]
  · simp [alloc, get?, Array.getElem?_push, hx, show x ≠ t.nodes.size from hx]

@[simp] theorem parent?_alloc (kind : NodeKind) (x : NodeId) :
    (t.alloc kind).1.parent? x = t.parent? x := by
  by_cases hx : x = t.size
  · simp [parent?, get?_alloc, hx, get?_eq_none_iff.2, Node.detached]
  · simp [parent?, get?_alloc, hx]

@[simp] theorem children_alloc (kind : NodeKind) (x : NodeId) :
    (t.alloc kind).1.children x = t.children x := by
  by_cases hx : x = t.size
  · simp [children, get?_alloc, hx, get?_eq_none_iff.2, Node.detached]
  · simp [children, get?_alloc, hx]

@[simp] theorem next?_alloc (kind : NodeKind) (x : NodeId) :
    (t.alloc kind).1.next? x = t.next? x := by
  by_cases hx : x = t.size
  · simp [next?, get?_alloc, hx, get?_eq_none_iff.2, Node.detached]
  · simp [next?, get?_alloc, hx]

@[simp] theorem prev?_alloc (kind : NodeKind) (x : NodeId) :
    (t.alloc kind).1.prev? x = t.prev? x := by
  by_cases hx : x = t.size
  · simp [prev?, get?_alloc, hx, get?_eq_none_iff.2, Node.detached]
  · simp [prev?, get?_alloc, hx]

theorem kind?_alloc (kind : NodeKind) (x : NodeId) :
    (t.alloc kind).1.kind? x = if x = t.size then some kind else t.kind? x := by
  by_cases hx : x = t.size
  · simp [kind?, get?_alloc, hx, Node.detached]
  · simp [kind?, get?_alloc, hx]

/-! ### Changing a node -/

@[simp] theorem size_modify (id : NodeId) (f : Node → Node) :
    (t.modify id f).size = t.size := by
  simp [modify, size]

theorem get?_modify (id : NodeId) (f : Node → Node) (x : NodeId) :
    (t.modify id f).get? x = if x = id then (t.get? x).map f else t.get? x := by
  by_cases hx : x = id
  · subst hx
    simp [modify, get?, Array.getElem?_modify]
  · simp [modify, get?, Array.getElem?_modify, hx, Ne.symm hx]

section Frame

variable {f : Node → Node} (id x : NodeId)

@[simp] theorem parent?_modify_of_eq (hf : ∀ n, (f n).parent = n.parent) :
    (t.modify id f).parent? x = t.parent? x := by
  by_cases hx : x = id
  · cases hn : t.get? x <;> simp [parent?, get?_modify, hx ▸ hn, hx, hf]
  · simp [parent?, get?_modify, hx]

@[simp] theorem children_modify_of_eq (hf : ∀ n, (f n).children = n.children) :
    (t.modify id f).children x = t.children x := by
  by_cases hx : x = id
  · cases hn : t.get? x <;> simp [children, get?_modify, hx ▸ hn, hx, hf]
  · simp [children, get?_modify, hx]

@[simp] theorem next?_modify_of_eq (hf : ∀ n, (f n).next = n.next) :
    (t.modify id f).next? x = t.next? x := by
  by_cases hx : x = id
  · cases hn : t.get? x <;> simp [next?, get?_modify, hx ▸ hn, hx, hf]
  · simp [next?, get?_modify, hx]

@[simp] theorem prev?_modify_of_eq (hf : ∀ n, (f n).prev = n.prev) :
    (t.modify id f).prev? x = t.prev? x := by
  by_cases hx : x = id
  · cases hn : t.get? x <;> simp [prev?, get?_modify, hx ▸ hn, hx, hf]
  · simp [prev?, get?_modify, hx]

@[simp] theorem kind?_modify_of_eq (hf : ∀ n, (f n).kind = n.kind) :
    (t.modify id f).kind? x = t.kind? x := by
  by_cases hx : x = id
  · cases hn : t.get? x <;> simp [kind?, get?_modify, hx ▸ hn, hx, hf]
  · simp [kind?, get?_modify, hx]

end Frame

section Write

variable {id : NodeId} (h : id < t.size)
include h

theorem parent?_modify_parent (v : Option NodeId) (x : NodeId) :
    (t.modify id fun n => { n with parent := v }).parent? x =
      if x = id then v else t.parent? x := by
  obtain ⟨n, hn⟩ := exists_get? h
  by_cases hx : x = id <;> simp [parent?, get?_modify, hx, hn]

theorem children_modify_children (c x : NodeId) :
    (t.modify id fun n => { n with children := n.children ++ [c] }).children x =
      if x = id then t.children id ++ [c] else t.children x := by
  obtain ⟨n, hn⟩ := exists_get? h
  by_cases hx : x = id <;> simp [children, get?_modify, hx, hn]

theorem next?_modify_next (v : Option NodeId) (x : NodeId) :
    (t.modify id fun n => { n with next := v }).next? x =
      if x = id then v else t.next? x := by
  obtain ⟨n, hn⟩ := exists_get? h
  by_cases hx : x = id <;> simp [next?, get?_modify, hx, hn]

theorem prev?_modify_prev (v : Option NodeId) (x : NodeId) :
    (t.modify id fun n => { n with prev := v }).prev? x =
      if x = id then v else t.prev? x := by
  obtain ⟨n, hn⟩ := exists_get? h
  by_cases hx : x = id <;> simp [prev?, get?_modify, hx, hn]

end Write

/-! ### Appending -/

/-- All that appending does: the child gets its parent and comes after the children
that were there before, and is linked with the last one of them. -/
structure Appended (t t' : Tree) (parent child : NodeId) : Prop where
  size : t'.size = t.size
  parent? : ∀ x, t'.parent? x = if x = child then some parent else t.parent? x
  children : ∀ x,
    t'.children x = if x = parent then t.children parent ++ [child] else t.children x
  next? : ∀ x,
    t'.next? x = if (t.children parent).getLast? = some x then some child else t.next? x
  prev? : ∀ x, t'.prev? x = if x = child then (t.children parent).getLast? else t.prev? x

namespace Appended

variable {parent child : NodeId}

theorem under (ha : t.Appended t' parent child) : t'.Under child parent := by
  rw [Under, ha.parent?, if_pos rfl]

/-- Appending moves no node but the child, so ways up stay if the child had no parent
to lose. -/
theorem within (ha : t.Appended t' parent child) (hfree : t.parent? child = none)
    {x y : NodeId} (hxy : t.Within x y) : t'.Within x y := by
  refine Relation.ReflTransGen.mono (fun c p hcp => ?_) _ _ hxy
  have hne : c ≠ child := by
    intro he
    subst he
    rw [Under, hfree] at hcp
    cases hcp
  rw [Under, ha.parent?, if_neg hne]
  exact hcp

end Appended

/-- Appending changes links only, also when it stops half-way. -/
@[simp] theorem kind?_appendChild (parent child x : NodeId) :
    (t.appendChild parent child).1.kind? x = t.kind? x := by
  unfold appendChild
  split
  · rfl
  · dsimp only
    split
    · split
      · simp
      · split <;> simp
    · simp

/-- Appending to an id that names no node changes nothing. -/
theorem appendChild_dangling {parent : NodeId} (h : ¬ parent < t.size) (child : NodeId) :
    t.appendChild parent child = (t, .error ⟨parent⟩) := by
  simp only [appendChild, get?_eq_none_iff.2 (Nat.not_lt.1 h)]

/-- Appending a node without siblings to a node whose last child is a node succeeds. -/
theorem appendChild_appended {parent child : NodeId} (hparent : parent < t.size)
    (hchild : child < t.size) (hprev : t.prev? child = none)
    (hlast : ∀ last ∈ (t.children parent).getLast?, last < t.size) :
    (t.appendChild parent child).2 = .ok () ∧
      t.Appended (t.appendChild parent child).1 parent child := by
  obtain ⟨p, hp⟩ := exists_get? hparent
  have hchildren : p.children = t.children parent := by simp [children, hp]
  -- the sibling links are only written when there is a child before
  cases hl : (t.children parent).getLast? with
  | none =>
    have hstep : t.appendChild parent child =
        ((t.modify parent fun n => { n with children := n.children ++ [child] }).modify child
          fun n => { n with parent := some parent }, .ok ()) := by
      simp [appendChild, hp, hchildren, hl, hchild]
    rw [hstep]
    refine ⟨rfl, ?_, fun x => ?_, fun x => ?_, fun x => ?_, fun x => ?_⟩
    · simp
    · rw [parent?_modify_parent (by simpa using hchild)]
      simp
    · simp [children_modify_children hparent]
    · simp [hl]
    · by_cases hx : x = child <;> simp [hl, hx, hprev]
  | some last =>
    have hlt : last < t.size := hlast last hl
    have hstep : t.appendChild parent child =
        ((((t.modify parent fun n => { n with children := n.children ++ [child] }).modify child
          fun n => { n with parent := some parent }).modify last
          fun n => { n with next := some child }).modify child
          fun n => { n with prev := some last }, .ok ()) := by
      simp [appendChild, hp, hchildren, hl, hchild, hlt]
    rw [hstep]
    refine ⟨rfl, ?_, fun x => ?_, fun x => ?_, fun x => ?_, fun x => ?_⟩
    · simp
    · simp [parent?_modify_parent, hchild]
    · simp [children_modify_children hparent]
    · simp [next?_modify_next, hlt, hl, eq_comm]
    · simp [prev?_modify_prev, hchild, hl]

end MarkupQuery.Tree
