import MarkupQuery.Proofs.Acceptance
import MarkupQuery.Proofs.DocumentOrder
import MarkupQuery.Selection

/-!
# Selections

Collecting the elements that a selector list selects and testing a single node come to
the same: the walk down meets exactly the nodes from which the way up leads to the scope
root, each of them once and in document order.

* `Forest.accepts_iff` — which nodes are accepted;
* `Forest.mem_select` — what is selected;
* `Forest.pairwise_select` — in which order;
* `Reachable.select_eq_accepted` — collecting and testing agree;
* `Forest.mem_select_append` — more alternatives select the union.
-/

namespace MarkupQuery.Tree

variable {t : Tree} {engine : PatternEngine} {scope x : NodeId} {list list' : SelectorList}

/-- A node is accepted if it is within the scope and an alternative accepts it. -/
theorem Forest.accepts_iff (h : t.Forest) :
    t.accepts engine scope list x = true ↔
      t.Within x scope ∧ Complex.anyAccepts ⟨t, engine, scope⟩ list x = true := by
  have hwithin : (x == scope || t.isBelow x scope) = true ↔ t.Within x scope := by
    rw [Within, Relation.reflTransGen_iff_eq_or_transGen, Bool.or_eq_true, beq_iff_eq,
      h.isBelow_iff, eq_comm]
    rfl
  rw [accepts, Matcher.accepts, Bool.and_eq_true, hwithin]

/-- A node below the scope root is accepted just when an alternative accepts it. -/
theorem Forest.accepts_of_below (h : t.Forest) (hx : t.Below x scope) :
    t.accepts engine scope list x = Complex.anyAccepts ⟨t, engine, scope⟩ list x := by
  rw [Bool.eq_iff_iff, h.accepts_iff, and_iff_right hx.within]

theorem Forest.accepts_of_not_within (h : t.Forest) (hx : ¬ t.Within x scope) :
    t.accepts engine scope list x = false := by
  rw [Bool.eq_false_iff, ne_eq, h.accepts_iff]
  exact fun haccepts => hx haccepts.1

/-- **What is selected** are the accepted elements below the scope root. -/
theorem Forest.mem_select (h : t.Forest) :
    x ∈ (t.select engine scope list).ids ↔
      t.isElement x = true ∧ t.Below x scope ∧ t.accepts engine scope list x = true := by
  have hfilter : x ∈ (t.select engine scope list).ids ↔ t.Below x scope ∧
      t.isElement x = true ∧ Complex.anyAccepts ⟨t, engine, scope⟩ list x = true := by
    simp [select, Matcher.selectAll, h.mem_descendants]
  rw [hfilter, h.accepts_iff]
  constructor
  · intro hx
    obtain ⟨hbelow, helement, hany⟩ := hx
    exact ⟨helement, hbelow, hbelow.within, hany⟩
  · intro hx
    obtain ⟨helement, hbelow, -, hany⟩ := hx
    exact ⟨hbelow, helement, hany⟩

/-- **The order of a selection** is document order. -/
theorem Forest.pairwise_select (h : t.Forest) :
    (t.select engine scope list).ids.Pairwise t.Precedes :=
  (h.pairwise_descendants scope).filter _

theorem Forest.nodup_select (h : t.Forest) : (t.select engine scope list).ids.Nodup :=
  h.nodup_of_pairwise_precedes h.pairwise_select

/-- Testing asks whether any alternative accepts a node, wherever it stands and however
often. -/
theorem accepts_congr (hlist : ∀ c, c ∈ list' ↔ c ∈ list) :
    t.accepts engine scope list' x = t.accepts engine scope list x := by
  have hany : Complex.anyAccepts ⟨t, engine, scope⟩ list' x =
      Complex.anyAccepts ⟨t, engine, scope⟩ list x := by
    rw [Bool.eq_iff_iff, Complex.anyAccepts_iff, Complex.anyAccepts_iff]
    simp only [hlist]
  simp only [accepts, Matcher.accepts, hany]

/-- **Collecting and testing agree.**  A selection lists the elements that are below the
scope root and are accepted when they are tested, each once and in document order; so
neither the order of the alternatives nor their repetition matters. -/
theorem Reachable.select_eq_accepted (h : Reachable t) (engine : PatternEngine)
    (scope : NodeId) (list : SelectorList) :
    (∀ x, x ∈ (t.select engine scope list).ids ↔
      t.isElement x = true ∧ t.Below x scope ∧ t.accepts engine scope list x = true) ∧
    (t.select engine scope list).ids.Nodup ∧
    (t.select engine scope list).ids.Pairwise t.Precedes ∧
    ∀ list' : SelectorList, (∀ c, c ∈ list' ↔ c ∈ list) →
      t.select engine scope list' = t.select engine scope list := by
  have hforest : t.Forest := h.forest
  refine ⟨fun x => hforest.mem_select, hforest.nodup_select, hforest.pairwise_select, ?_⟩
  intro list' hlist
  have hids : (t.select engine scope list').ids = (t.select engine scope list).ids := by
    refine hforest.eq_of_pairwise_precedes hforest.pairwise_select hforest.pairwise_select ?_
    intro x
    rw [hforest.mem_select, hforest.mem_select, accepts_congr hlist]
  rw [Selection.mk.injEq]
  exact hids

/-- Below the first of two divisions, paragraphs and what is bold come in document order
although the alternatives name them the other way round, and one of them twice. -/
theorem select_eq_accepted_repeated :
    ∃ t : Tree, Reachable t ∧
      (t.select ⟨fun _ => .error ""⟩ 1
        [.only [.type "b"], .only [.type "p"], .only [.type "b"]]).ids = [2, 3, 4] ∧
      t.Below 3 1 := by
  let bold : Description := .element "b" .empty []
  let division : Description := .element "div" .empty [.element "p" .empty [bold], bold]
  have h₁ := Reachable.empty.appendDescription .empty root division fun _ _ => by decide
  have h := h₁.appendDescription .empty root division fun _ _ => by decide +kernel
  obtain ⟨hmem, -, -, hsame⟩ := Reachable.select_eq_accepted h ⟨fun _ => .error ""⟩ 1
    [.only [.type "p"], .only [.type "b"]]
  refine ⟨_, h, ?_, ((hmem 3).1 (by decide +kernel)).2.1⟩
  rw [hsame _ (by simp [or_comm])]
  decide +kernel

/-- What is accepted by some of several lists of alternatives. -/
theorem accepts_append {list₁ list₂ : SelectorList} :
    t.accepts engine scope (list₁ ++ list₂) x =
      (t.accepts engine scope list₁ x || t.accepts engine scope list₂ x) := by
  have hany : Complex.anyAccepts ⟨t, engine, scope⟩ (list₁ ++ list₂) x =
      (Complex.anyAccepts ⟨t, engine, scope⟩ list₁ x ||
        Complex.anyAccepts ⟨t, engine, scope⟩ list₂ x) := by
    induction list₁ with
    | nil => simp [Complex.anyAccepts]
    | cons c rest ih => simp [Complex.anyAccepts, ih, Bool.or_assoc]
  simp only [accepts, Matcher.accepts, hany, Bool.and_or_distrib_left]

/-- **More alternatives** select the union. -/
theorem Forest.mem_select_append (h : t.Forest) {list₁ list₂ : SelectorList} :
    x ∈ (t.select engine scope (list₁ ++ list₂)).ids ↔
      x ∈ (t.select engine scope list₁).ids ∨ x ∈ (t.select engine scope list₂).ids := by
  simp only [h.mem_select, accepts_append, Bool.or_eq_true, ← and_or_left]

end MarkupQuery.Tree
