import MarkupQuery.Proofs.DocumentOrder
import MarkupQuery.Proofs.Growth

/-!
# Walks taken node by node

A walk can also be taken one node at a time.  Along a link it holds the node that comes
next; down from a node it holds a stack of nodes that are still to be visited.  Neither
remembers where it has been or counts its steps, so nothing but the shape of the tree
makes it end.  In a forest each of them ends, and has given what the walks of the tree
list.

* `Gives`, `Lists` — what an iterator gives on its way from one state to another, and all
  that it gives until it ends;
* `Tree.Traversal` — nodes in preorder, said by recursion on the lists of children;
* `Traversal.gives` — what the stack holds is walked from its top, and a subtree leaves
  what lies under it;
* `Forest.traversal` — in a forest everything has a preorder, which is finite;
* `Reachable.walks_agree` — all ways of walking describe the same tree.
-/

namespace MarkupQuery

/-! ### Iterators -/

section Iterators

variable {σ α : Type} {next : σ → Option (α × σ)} {s s' e : σ} {as bs : List α}

/-- An iterator gives the members of a list, one by one, on its way from a state to
another one. -/
inductive Gives (next : σ → Option (α × σ)) : σ → List α → σ → Prop
  | refl (s : σ) : Gives next s [] s
  | step {s s' e : σ} {a : α} {as : List α} (h : next s = some (a, s'))
      (hrest : Gives next s' as e) : Gives next s (a :: as) e

/-- All that an iterator gives from a state on, until it ends. -/
def Lists (next : σ → Option (α × σ)) (s : σ) (as : List α) : Prop :=
  ∃ e, Gives next s as e ∧ next e = none

theorem Gives.trans (h : Gives next s as s') (h' : Gives next s' bs e) :
    Gives next s (as ++ bs) e := by
  induction h with
  | refl => exact h'
  | step h _ ih => exact .step h (ih h')

/-- An iterator that ends has only one way to go. -/
theorem Lists.unique (h : Lists next s as) (h' : Lists next s bs) : as = bs := by
  obtain ⟨e, hgives, hend⟩ := h
  obtain ⟨e', hgives', hend'⟩ := h'
  induction hgives generalizing bs with
  | refl s =>
      cases hgives' with
      | refl => rfl
      | step hstep => cases hend.symm.trans hstep
  | step hstep _ ih =>
      cases hgives' with
      | refl => cases hend'.symm.trans hstep
      | step hstep' hrest' =>
          cases hstep.symm.trans hstep'
          rw [ih hend hrest']

theorem Lists.iff_eq (h : Lists next s as) : Lists next s bs ↔ bs = as :=
  ⟨fun h' => h'.unique h, fun he => he ▸ h⟩

end Iterators

namespace Tree

variable {t : Tree} {x : NodeId}

/-! ### Along a link -/

/-- One step along a link: the node at hand is given, and its link leads to the next one. -/
def along (link : NodeId → Option NodeId) (current : Option NodeId) :
    Option (NodeId × Option NodeId) :=
  current.map fun id => (id, link id)

/-- A way that ended before the steps ran out is all that the iterator lists. -/
theorem lists_along {link : NodeId → Option NodeId} {fuel : Nat}
    (hlen : (follow link fuel x).length < fuel) :
    Lists (along link) (link x) (follow link fuel x) := by
  induction fuel generalizing x with
  | zero => omega
  | succ fuel ih =>
      cases hy : link x with
      | none =>
          simp only [follow, hy]
          exact ⟨none, .refl none, rfl⟩
      | some y =>
          simp only [follow, hy, List.length_cons, Nat.add_lt_add_iff_right] at hlen ⊢
          obtain ⟨e, hgives, hend⟩ := ih hlen
          exact ⟨e, .step rfl hgives, hend⟩

/-- Fewer siblings stand before a node than there are nodes. -/
theorem Forest.length_precedingSiblings_lt (h : t.Forest) (x : NodeId) :
    (t.precedingSiblings x).length < t.size := by
  cases hp : t.parent? x with
  | none =>
      rw [h.precedingSiblings_eq_reverse, siblingsBefore, hp]
      exact h.inhabited
  | some p =>
      obtain ⟨before, after, hsplit⟩ := List.append_of_mem (h.mem_children.2 hp)
      rw [h.precedingSiblings_eq hsplit, List.length_reverse]
      exact h.length_before_lt hsplit

theorem Forest.lists_precedingSiblings (h : t.Forest) (x : NodeId) :
    Lists (along t.prev?) (t.prev? x) (t.precedingSiblings x) :=
  lists_along (h.length_precedingSiblings_lt x)

theorem Forest.lists_ancestors (h : t.Forest) (x : NodeId) :
    Lists (along t.parent?) (t.parent? x) (t.ancestors x) :=
  lists_along (h.length_ancestors_lt x)

/-! ### Down with a stack -/

/-- One step of the walk down.  The last node of the stack is given, and its children take
its place, the first of them last. -/
def descend (t : Tree) (stack : List NodeId) : Option (NodeId × List NodeId) :=
  stack.getLast?.map fun id => (id, stack.dropLast ++ (t.children id).reverse)

/-- The nodes of a list, each followed by the traversal of its children. -/
inductive Traversal (t : Tree) : List NodeId → List NodeId → Prop
  | nil : Traversal t [] []
  | cons {id : NodeId} {ids below beside : List NodeId}
      (hbelow : Traversal t (t.children id) below) (hbeside : Traversal t ids beside) :
      Traversal t (id :: ids) (id :: below ++ beside)

/-- **The stack.**  What lies on top of a stack, the first node uppermost, is walked down
in preorder, and what lies under it is left as it was. -/
theorem Traversal.gives {ids out : List NodeId} (h : t.Traversal ids out)
    (under : List NodeId) : Gives t.descend (under ++ ids.reverse) out under := by
  induction h generalizing under with
  | nil =>
      rw [List.reverse_nil, List.append_nil]
      exact .refl under
  | @cons id ids below beside _ _ ihbelow ihbeside =>
      have hstep : t.descend (under ++ (id :: ids).reverse) =
          some (id, (under ++ ids.reverse) ++ (t.children id).reverse) := by
        rw [List.reverse_cons, ← List.append_assoc, descend, List.getLast?_concat,
          List.dropLast_concat]
        rfl
      exact .step hstep ((ihbelow (under ++ ids.reverse)).trans (ihbeside under))

/-- In a forest the nodes of every list can be traversed. -/
theorem Forest.traversal (h : t.Forest) (ids : List NodeId) :
    t.Traversal ids (ids.flatMap fun id => id :: t.descendants id) := by
  generalize hlen : (ids.flatMap fun id => id :: t.descendants id).length = n
  induction n using Nat.strongRecOn generalizing ids with
  | ind n ih =>
      cases ids with
      | nil => exact .nil
      | cons id ids =>
          simp only [List.flatMap_cons, List.length_append, List.length_cons] at hlen
          have hbelow : t.Traversal (t.children id) (t.descendants id) := by
            rw [h.descendants_eq_flatMap]
            exact ih _ (by rw [← h.descendants_eq_flatMap]; omega) _ rfl
          have hbeside := ih _ (by omega) ids rfl
          exact .cons hbelow hbeside

/-- The walk down is the preorder of the children. -/
theorem Forest.traversal_descendants (h : t.Forest) (x : NodeId) :
    t.Traversal (t.children x) (t.descendants x) := by
  rw [h.descendants_eq_flatMap]
  exact h.traversal (t.children x)

/-- A stack that holds nothing else lists the traversal. -/
theorem Traversal.lists {ids out : List NodeId} (h : t.Traversal ids out) :
    Lists t.descend ids.reverse out :=
  ⟨[], h.gives [], rfl⟩

theorem Forest.lists_descendants (h : t.Forest) (x : NodeId) :
    Lists t.descend (t.children x).reverse (t.descendants x) :=
  (h.traversal_descendants x).lists

/-- The children of a node have one traversal, the walk down. -/
theorem Forest.traversal_iff_eq (h : t.Forest) (x : NodeId) {out : List NodeId} :
    t.Traversal (t.children x) out ↔ out = t.descendants x :=
  ⟨fun h' => h'.lists.unique (h.lists_descendants x), fun he => he ▸ h.traversal_descendants x⟩

/-! ### All ways -/

/-- **All ways of walking describe the same tree.**  Each iterator ends.  The one that goes
down gives the preorder of the lists of children, every node once, and exactly the nodes
below the one that it starts from; the one that goes back gives the siblings listed before
a node, from the last to the first; the one that goes up gives no node twice, and never the
node that it starts from. -/
theorem Reachable.walks_agree (h : Reachable t) (x : NodeId) :
    ((∀ ids, Lists t.descend (t.children x).reverse ids ↔ ids = t.descendants x) ∧
      (∀ ids, t.Traversal (t.children x) ids ↔ ids = t.descendants x) ∧
      (t.descendants x).Nodup ∧ ∀ y, y ∈ t.descendants x ↔ t.isBelow y x = true) ∧
    ((∀ ids, Lists (along t.prev?) (t.prev? x) ids ↔ ids = t.precedingSiblings x) ∧
      (t.parent? x = none → t.precedingSiblings x = []) ∧
      ∀ p, t.parent? x = some p → ∃ before after, t.children p = before ++ x :: after ∧
        x ∉ before ∧ t.precedingSiblings x = before.reverse) ∧
    (∀ ids, Lists (along t.parent?) (t.parent? x) ids ↔ ids = t.ancestors x) ∧
      (t.ancestors x).Nodup ∧ x ∉ t.ancestors x := by
  have hf : t.Forest := h.forest
  refine ⟨⟨fun ids => (hf.lists_descendants x).iff_eq, fun ids => hf.traversal_iff_eq x,
    hf.nodup_of_pairwise_precedes (hf.pairwise_descendants x), fun y => ?_⟩,
    ⟨fun ids => (hf.lists_precedingSiblings x).iff_eq, fun hp => ?_, fun p hp => ?_⟩,
    fun ids => (hf.lists_ancestors x).iff_eq, ?_, ?_⟩
  · rw [hf.mem_descendants, hf.isBelow_iff]
  · rw [hf.precedingSiblings_eq_reverse, siblingsBefore, hp]
    rfl
  · obtain ⟨before, after, hsplit⟩ := List.append_of_mem (hf.mem_children.2 hp)
    exact ⟨before, after, hsplit, hf.notMem_of_children_eq hsplit,
      hf.precedingSiblings_eq hsplit⟩
  · exact (pairwise_ancestors t x).imp hf.ne_of_below
  · rw [hf.mem_ancestors]
    exact hf.not_below_self x

/-- What is bold comes to the first item of a list after the second item was made, so that
the walks do not go by the order of the ids. -/
theorem walks_agree_late_child : ∃ t, Reachable t ∧
    Lists t.descend (t.children root).reverse [1, 2, 5, 3, 4] ∧
    Lists (along t.prev?) (t.prev? 4) [3, 2] ∧ Lists (along t.parent?) (t.parent? 5) [2, 1, 0] := by
  have h₁ := Reachable.empty.appendElement root ⟨"ul", .empty⟩ fun _ _ => by decide
  have h₂ := h₁.appendElement 1 ⟨"li", .empty⟩ fun _ _ => by decide
  have h₃ := h₂.appendText 1 "between" fun _ _ => by decide
  have h₄ := h₃.appendElement 1 ⟨"li", .empty⟩ fun _ _ => by decide
  have h₅ := h₄.appendElement 2 ⟨"b", .empty⟩ fun _ _ => by decide
  refine ⟨_, h₅, ?_, ?_, ?_⟩
  · exact ((Reachable.walks_agree h₅ root).1.1 _).2 (by decide +kernel)
  · exact ((Reachable.walks_agree h₅ 4).2.1.1 _).2 (by decide +kernel)
  · exact ((Reachable.walks_agree h₅ 5).2.2.1 _).2 (by decide +kernel)

end Tree

end MarkupQuery
