import MarkupQuery.Proofs.Positions

/-!
# Queries inside of selectors

`:has` asks a query of its own, with the candidate as scope root, and `:not` a test in the
scope that is searched.  Either one written after a subject filters what the chain selects
without it, for a simple selector that comes last takes part in no count: the ordinals
before it have counted their competitors already, and the rest of the chain is related to
the same nodes.

* `Complex.withSimple` — a chain with one more simple selector after its subject;
* `Complex.accepts_withSimple`, `Tree.select_withSimple` — it filters, unless it is an
  ordinal;
* `Simple.test_has_of_isElement`, `Simple.test_not_of_isElement` — the query and the test that
  are asked;
* `Tree.Forest.select_has`, `Tree.Forest.select_not`, `Tree.Forest.select_not_has` — what is
  left with either one;
* `Tree.Reachable.select_subquery` — the elements for which a query finds something, and the
  remaining ones.
-/

namespace MarkupQuery

open MarkupQuery.Tree

variable {m : Matcher} {x : NodeId} {s : Simple}

/-! ### One more simple selector -/

/-- A chain with one more simple selector after its subject. -/
def Complex.withSimple (s : Simple) : Complex → Complex
  | .only compound => .only (compound ++ [s])
  | .linked compound via left => .linked (compound ++ [s]) via left

/-- A simple selector alone is asked for, whatever competes. -/
theorem Matcher.satisfies_singleton (hs : s.isOrdinal = false) (competes : NodeId → Bool) :
    m.satisfies competes (Simple.conditions m [s]) x = s.test m x := by
  rw [satisfies_of_not_ordinal competes (List.forall_mem_singleton.2 hs)]
  simp

/-- The last simple selector of a compound is asked for beside the others. -/
theorem Matcher.satisfies_concat (hs : s.isOrdinal = false) (competes : NodeId → Bool)
    (compound : Compound) :
    m.satisfies competes (Simple.conditions m (compound ++ [s])) x =
      (m.satisfies competes (Simple.conditions m compound) x && s.test m x) := by
  rw [satisfies_append, satisfies_singleton hs]

theorem Complex.accepts_only_singleton (hs : s.isOrdinal = false) :
    (only [s]).accepts m x = s.test m x := by
  rw [accepts, Matcher.satisfies_singleton hs]

/-- **One more simple selector** is asked for beside what the chain asks. -/
theorem Complex.accepts_withSimple (hs : s.isOrdinal = false) (c : Complex) :
    (c.withSimple s).accepts m x = (c.accepts m x && s.test m x) := by
  cases c with
  | only compound => rw [withSimple, accepts, accepts, Matcher.satisfies_concat hs]
  | linked compound via left =>
      rw [withSimple, accepts, accepts, Matcher.satisfies_concat hs, Bool.and_right_comm]

/-! ### Queries and tests -/

variable {t : Tree} {engine : PatternEngine} {scope : NodeId} {list : SelectorList}

namespace Tree

/-- What is selected with one more simple selector is what passes it in the selection
without. -/
theorem select_withSimple (hs : s.isOrdinal = false) (c : Complex) :
    (t.select engine scope [c.withSimple s]).ids =
      (t.select engine scope [c]).ids.filter (s.test ⟨t, engine, scope⟩) := by
  simp only [select, Matcher.selectAll, List.filter_filter, Complex.anyAccepts,
    Complex.accepts_withSimple hs, Bool.or_false]
  refine List.filter_congr fun x _ => ?_
  ac_rfl

/-- A query finds nothing if no element below its scope root is accepted. -/
theorem isEmpty_select : (t.select engine x list).isEmpty =
    !((t.descendants x).filter t.isElement).any (Complex.anyAccepts ⟨t, engine, x⟩ list) := by
  rw [Bool.eq_iff_iff]
  simp [select, Matcher.selectAll, Selection.isEmpty]

end Tree

namespace Simple

/-- **`:has` asks a query** from the candidate. -/
theorem test_has_of_isElement (hx : t.isElement x = true) :
    (Simple.has list).test ⟨t, engine, scope⟩ x = !(t.select engine x list).isEmpty := by
  rw [test_has, isEmpty_select, Bool.not_not, hx, Bool.true_and]

/-- **`:not` asks for a test** to fail, in the scope that is searched. -/
theorem test_not_of_isElement (h : t.Forest) (hx : t.isElement x = true)
    (hbelow : t.Below x scope) :
    (Simple.not list).test ⟨t, engine, scope⟩ x = !t.accepts engine scope list x := by
  rw [test_not, h.accepts_of_below hbelow, hx, Bool.true_and]

end Simple

namespace Tree

/-- With `:has` after a subject those are left from which the query finds something. -/
theorem Forest.select_has (h : t.Forest) (c : Complex) :
    (t.select engine scope [c.withSimple (.has list)]).ids =
      (t.select engine scope [c]).ids.filter fun x => !(t.select engine x list).isEmpty := by
  refine (select_withSimple rfl c).trans (List.filter_congr fun x hx => ?_)
  obtain ⟨helement, -⟩ := h.mem_select.1 hx
  exact Simple.test_has_of_isElement helement

/-- With `:not` after a subject those are left which the test does not accept. -/
theorem Forest.select_not (h : t.Forest) (c : Complex) :
    (t.select engine scope [c.withSimple (.not list)]).ids =
      (t.select engine scope [c]).ids.filter fun x => !t.accepts engine scope list x := by
  refine (select_withSimple rfl c).trans (List.filter_congr fun x hx => ?_)
  obtain ⟨helement, hbelow, -⟩ := h.mem_select.1 hx
  exact Simple.test_not_of_isElement h helement hbelow

/-- **The negation of `:has`** leaves those from which the query finds nothing. -/
theorem Forest.select_not_has (h : t.Forest) (c : Complex) :
    (t.select engine scope [c.withSimple (.not [.only [.has list]])]).ids =
      (t.select engine scope [c]).ids.filter fun x => (t.select engine x list).isEmpty := by
  refine (h.select_not c).trans (List.filter_congr fun x hx => ?_)
  obtain ⟨helement, hbelow, -⟩ := h.mem_select.1 hx
  rw [h.accepts_singleton hbelow, Complex.accepts_only_singleton rfl,
    Simple.test_has_of_isElement helement, Bool.not_not]

/-- **Queries inside of selectors.**  With `:has` after a subject those of the elements
selected without it are left for which the query from the element finds something, and with
`:not` those which the test in the scope does not accept.  So `:has` and the negation of it
share out the selection. -/
theorem Reachable.select_subquery (h : Reachable t) (engine : PatternEngine) (scope : NodeId)
    (c : Complex) (list : SelectorList) :
    let selected := (t.select engine scope [c]).ids
    let having := (t.select engine scope [c.withSimple (.has list)]).ids
    let lacking := (t.select engine scope [c.withSimple (.not [.only [.has list]])]).ids
    having = selected.filter (fun x => !(t.select engine x list).isEmpty) ∧
    (t.select engine scope [c.withSimple (.not list)]).ids =
      selected.filter (fun x => !t.accepts engine scope list x) ∧
    lacking = selected.filter (fun x => (t.select engine x list).isEmpty) ∧
    lacking = selected.filter (fun x => !having.contains x) ∧
    having.Disjoint lacking ∧ (having ++ lacking).Perm selected := by
  intro selected having lacking
  have hhaving : having = selected.filter fun x => !(t.select engine x list).isEmpty :=
    h.forest.select_has c
  have hlacking : lacking = selected.filter fun x => (t.select engine x list).isEmpty :=
    h.forest.select_not_has c
  have hremaining : lacking = selected.filter fun x => !having.contains x := by
    rw [hlacking]
    refine List.filter_congr fun x hx => ?_
    rw [hhaving, List.contains_eq_mem]
    simp [hx]
  refine ⟨hhaving, h.forest.select_not c, hlacking, hremaining, ?_, ?_⟩
  · intro x hx hlack
    rw [hremaining, List.mem_filter, List.contains_eq_mem] at hlack
    simp [hx] at hlack
  · have hperm := List.filter_append_perm (fun x => !(t.select engine x list).isEmpty) selected
    simp only [Bool.not_not] at hperm
    rwa [hhaving, hlacking]

/-- Of the first two sections in a division one has a paragraph for its child in which
something is bold.  The third one has such a paragraph, too, but is not among the first
two. -/
theorem select_subquery_sections :
    let early : Complex := .linked [.type "section", .ordinal ⟨.lt, 2⟩] .child (.only [.type "div"])
    let bold : SelectorList :=
      [.linked [.type "p", .has [.only [.type "b"]]] .child (.only [.scope])]
    ∃ t : Tree, Reachable t ∧
      (t.select ⟨fun _ => .error ""⟩ root [early]).ids = [2, 5] ∧
      (t.select ⟨fun _ => .error ""⟩ root [early.withSimple (.has bold)]).ids = [2] ∧
      (t.select ⟨fun _ => .error ""⟩ root
        [early.withSimple (.not [.only [.has bold]])]).ids = [5] ∧
      (t.select ⟨fun _ => .error ""⟩ root [early.withSimple (.not bold)]).ids = [2, 5] := by
  intro early bold
  let paragraph : Description := .element "p" .empty [.element "b" .empty []]
  have h := Reachable.empty.appendDescription .empty root (.element "div" .empty
    [.element "section" .empty [paragraph], .element "section" .empty [.element "p" .empty []],
      .element "section" .empty [paragraph]]) fun _ _ => by decide
  obtain ⟨hhas, hnot, hlacking, -⟩ :=
    h.select_subquery ⟨fun _ => .error ""⟩ root early bold
  exact ⟨_, h, by decide +kernel, hhas.trans (by decide +kernel),
    hlacking.trans (by decide +kernel), hnot.trans (by decide +kernel)⟩

end Tree

end MarkupQuery
