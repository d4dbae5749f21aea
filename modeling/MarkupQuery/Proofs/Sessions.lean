import MarkupQuery.Proofs.Building
import MarkupQuery.Proofs.Selections
import Mathlib.Data.List.Induction

/-!
# Sessions

A session is a sequence of steps on a current selection, which a step replaces by the
elements that it finds in the tree, or below the elements selected so far.  The scopes of
such a query may lie within each other and find the same elements, and the elements that
one finds may lie between those of another.  All the same a selection stays in document
order and loses nothing.

* `QueryStep`, `Selection.after` — steps, and the selection that they lead to;
* `Selection.InOrder` — what every selection of a session satisfies;
* `Forest.inOrder_apply`, `Forest.inOrder_after` — one step, and all of them;
* `Selection.after_complete` — in a tree that was built, a query loses nothing.
-/

namespace MarkupQuery

/-- A step on a current selection. -/
inductive QueryStep where
  /-- Query the tree below a node. -/
  | query (parser : Parser) (scope : NodeId) (text : String)
  /-- Query below each of the selected elements. -/
  | requery (parser : Parser) (text : String)
  /-- Query below each of the selected elements with a selector that has been read. -/
  | reselect (engine : PatternEngine) (list : SelectorList)
  | clear

/-- The selection that a step leads to.  If its selector does not parse, the selection
stays. -/
def QueryStep.apply (t : Tree) (s : Selection) : QueryStep → Selection
  | .query parser scope text => (t.query parser scope text).toOption.getD s
  | .requery parser text => (s.query t parser text).toOption.getD s
  | .reselect engine list => s.select t engine list
  | .clear => .empty

namespace Selection

/-- The selection after some steps, starting from nothing. -/
def after (t : Tree) (steps : List QueryStep) : Selection :=
  steps.foldl (QueryStep.apply t) .empty

theorem after_concat (t : Tree) (steps : List QueryStep) (step : QueryStep) :
    after t (steps ++ [step]) = step.apply t (after t steps) := by
  rw [after, List.foldl_concat]
  rfl

variable {t : Tree} {parser : Parser} {text : String} {list : SelectorList} {e : SelectorError}

/-- A selector that can be read is read first. -/
theorem after_requery (h : parser.parse text = .ok list) (steps : List QueryStep) :
    after t (steps ++ [.requery parser text]) =
      after t (steps ++ [.reselect parser.engine list]) := by
  rw [after_concat, after_concat, QueryStep.apply, Selection.query, h]
  rfl

theorem after_query (h : parser.parse text = .ok list) (steps : List QueryStep) (scope : NodeId) :
    after t (steps ++ [.query parser scope text]) = t.select parser.engine scope list := by
  rw [after_concat, QueryStep.apply, Tree.query, h]
  rfl

/-- A selector that cannot be read leaves the selection alone. -/
theorem after_requery_of_error (h : parser.parse text = .error e) (steps : List QueryStep) :
    after t (steps ++ [.requery parser text]) = after t steps := by
  rw [after_concat, QueryStep.apply, Selection.query, h]
  rfl

theorem after_query_of_error (h : parser.parse text = .error e) (steps : List QueryStep)
    (scope : NodeId) : after t (steps ++ [.query parser scope text]) = after t steps := by
  rw [after_concat, QueryStep.apply, Tree.query, h]
  rfl

/-- A selection holds elements only, in document order. -/
structure InOrder (t : Tree) (s : Selection) : Prop where
  isElement : ∀ x ∈ s.ids, t.isElement x = true
  pairwise : s.ids.Pairwise t.Precedes

theorem InOrder.empty (t : Tree) : InOrder t .empty := ⟨by simp [Selection.empty], .nil⟩

end Selection

namespace Tree

open Selection

variable {t : Tree} {s : Selection} {engine : PatternEngine} {list : SelectorList} {x : NodeId}

theorem Forest.inOrder_select (h : t.Forest) (engine : PatternEngine) (scope : NodeId)
    (list : SelectorList) : InOrder t (t.select engine scope list) where
  isElement _ hx := (h.mem_select.1 hx).1
  pairwise := h.pairwise_select

/-- What is found below the elements of a selection. -/
theorem mem_select_iff : x ∈ (s.select t engine list).ids ↔
    x ∈ t.descendants root ∧ ∃ scope ∈ s.ids, x ∈ (t.select engine scope list).ids := by
  simp [Selection.select]

/-- Whatever the scopes, the second walk puts what they find into document order. -/
theorem Forest.inOrder_reselect (h : t.Forest) (s : Selection) (engine : PatternEngine)
    (list : SelectorList) : InOrder t (s.select t engine list) where
  isElement x hx := by
    obtain ⟨-, scope, -, hfound⟩ := mem_select_iff.1 hx
    exact (h.mem_select.1 hfound).1
  pairwise := (h.pairwise_descendants root).filter _

/-- **One step** leads to a selection in order. -/
theorem Forest.inOrder_apply (h : t.Forest) (hs : InOrder t s) (step : QueryStep) :
    InOrder t (step.apply t s) := by
  cases step with
  | query parser scope text =>
      rw [QueryStep.apply, Tree.query]
      cases parser.parse text with
      | error e => exact hs
      | ok list => exact h.inOrder_select parser.engine scope list
  | requery parser text =>
      rw [QueryStep.apply, Selection.query]
      cases parser.parse text with
      | error e => exact hs
      | ok list => exact h.inOrder_reselect s parser.engine list
  | reselect engine list => exact h.inOrder_reselect s engine list
  | clear => exact .empty t

/-- **Any number of steps** leads to a selection in order. -/
theorem Forest.inOrder_after (h : t.Forest) (steps : List QueryStep) :
    InOrder t (after t steps) := by
  induction steps using List.reverseRecOn with
  | nil => exact .empty t
  | append_singleton steps step ih =>
      rw [after_concat]
      exact h.inOrder_apply ih step

/-- Where the walk from the document meets everything that has a parent, nothing that is
found is lost. -/
theorem Forest.mem_reselect (h : t.Forest) (hall : ∀ x p, t.parent? x = some p →
    x ∈ t.descendants root) : x ∈ (s.select t engine list).ids ↔
      ∃ scope ∈ s.ids, x ∈ (t.select engine scope list).ids := by
  rw [mem_select_iff]
  refine and_iff_right_of_imp fun hfound => ?_
  obtain ⟨scope, -, hx⟩ := hfound
  obtain ⟨p, hp, -⟩ := Relation.TransGen.head'_iff.1 (h.mem_select.1 hx).2.1
  exact hall x p hp

/-- In a tree that was built the walk from the document meets everything but the document. -/
theorem mem_descendants_root_of_build {log : WarningLog} {nodes : List Description}
    (h : (Tree.build log nodes).2 = .ok t) {p : NodeId} (hx : t.parent? x = some p) :
    x ∈ t.descendants root := by
  have hforest : t.Forest := (Reachable.build log nodes h).forest
  have hne : x ≠ 0 := by
    intro heq
    rw [heq, show t.parent? 0 = none from hforest.parent?_root] at hx
    cases hx
  have hlt : x < t.size := lt_size_of_parent? hx
  rw [descendants_root_of_build h, List.mem_range'_1]
  exact ⟨Nat.pos_of_ne_zero hne, by rwa [Nat.add_sub_cancel' hforest.inhabited]⟩

end Tree

namespace Selection

open MarkupQuery.Tree

/-- **Sessions keep order and lose nothing.**  In a tree that was built, after any steps
the selection holds elements only, in document order, which is that of the ids, and each
once.  A query from there finds exactly what it finds below one of the selected elements
or another, however these lie within each other.  A text that can be read does what the
selector that it is read as does, and any other text leaves the selection alone. -/
theorem after_complete {t : Tree} {log : WarningLog} {nodes : List Description}
    (h : (Tree.build log nodes).2 = .ok t) (steps : List QueryStep) :
    (∀ x ∈ (after t steps).ids, t.isElement x = true) ∧
    (after t steps).ids.Pairwise t.Precedes ∧
    (after t steps).ids.Pairwise (· < ·) ∧
    (after t steps).ids.Nodup ∧
    (∀ engine list x, x ∈ (after t (steps ++ [.reselect engine list])).ids ↔
      ∃ scope ∈ (after t steps).ids, x ∈ (t.select engine scope list).ids) ∧
    (∀ (parser : Parser) text list, parser.parse text = .ok list →
      after t (steps ++ [.requery parser text]) =
        after t (steps ++ [.reselect parser.engine list]) ∧
      ∀ scope, after t (steps ++ [.query parser scope text]) =
        t.select parser.engine scope list) ∧
    ∀ (parser : Parser) text e, parser.parse text = .error e →
      after t (steps ++ [.requery parser text]) = after t steps ∧
      ∀ scope, after t (steps ++ [.query parser scope text]) = after t steps := by
  have hforest : t.Forest := (Reachable.build log nodes h).forest
  have horder := hforest.inOrder_after steps
  have hpos : ∀ x ∈ (after t steps).ids, 0 < x ∧ x < t.size :=
    fun x hx => pos_of_isElement_of_build h (horder.isElement x hx)
  refine ⟨horder.isElement, horder.pairwise, ?_,
    hforest.nodup_of_pairwise_precedes horder.pairwise, fun engine list x => ?_,
    fun _ _ _ hread => ⟨after_requery hread steps, after_query hread steps⟩,
    fun _ _ _ hread => ⟨after_requery_of_error hread steps, after_query_of_error hread steps⟩⟩
  · refine horder.pairwise.imp_of_mem fun hx hy hxy => ?_
    exact (precedes_iff_lt_of_build h (hpos _ hx) (hpos _ hy)).1 hxy
  · rw [after_concat]
    exact hforest.mem_reselect fun _ _ hp => mem_descendants_root_of_build h hp

/-- One division lies within another one, so both find the inner paragraph; and a selector
that does not parse changes nothing. -/
theorem after_complete_nested :
    let p : Parser := ⟨.standard, .literal⟩
    let steps : List QueryStep := [.query p root "div", .requery p "p,"]
    let paragraph : SelectorList := [.only [.type "p"]]
    ∃ t, (Tree.build .empty [.element "div" .empty
        [.element "div" .empty [.element "p" .empty []], .element "p" .empty []]]).2 = .ok t ∧
      (after t steps).ids = [1, 2] ∧
      (after t (steps ++ [.reselect p.engine paragraph])).ids = [3, 4] ∧
      ∃ scope ∈ (after t steps).ids, 4 ∈ (t.select p.engine scope paragraph).ids := by
  intro p steps paragraph
  obtain ⟨t, ht, -⟩ := exists_build .empty [.element "div" .empty
    [.element "div" .empty [.element "p" .empty []], .element "p" .empty []]] (by decide +kernel)
  have hmem := (after_complete ht steps).2.2.2.2.1 p.engine paragraph 4
  obtain rfl := build_eq_ok ht
  exact ⟨_, ht, by decide +kernel, by decide +kernel, hmem.1 (by decide +kernel)⟩

end Selection

end MarkupQuery
