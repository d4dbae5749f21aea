import MarkupQuery.Proofs.Combining
import MarkupQuery.Proofs.Loosening

/-!
# Leading combinators

A combinator at the start of an alternative stands between the scope root and the first
compound.  The scope root is an anchor that is always there: everything selected is below
it, some of it as its child, and nothing stands beside it within the scope.  So a leading
`>` keeps the children of the scope root, a leading `+` or `~` keeps nothing, and `:scope`
before a blank changes nothing.  Ordinals count as they do without the anchor.

* `Parser.resume_leading` — a leading combinator is read as one after the scope root;
* `Parser.parse_leading` — a text of one compound with a combinator before it;
* `Matcher.relates_scope_child`, `Matcher.relates_scope_descendant`,
  `Matcher.relates_scope_sideways` — what the anchor is related to;
* `Reachable.select_anchored` — what is selected.
-/

namespace MarkupQuery

open MarkupQuery.Tree

variable {p : Parser} {nested : List Char → Nat → Outcome SelectorList}

/-! ### Reading -/

/-- Whether a place is in a chain that goes on to the left. -/
def Place.isLinked : Place → Bool
  | .opening => false
  | .leading _ | .pending _ _ _ => true
  | .inside left _ => left.isSome
  | .behind chain => !chain.links.isEmpty

/-- A chain that goes on to the left does so until it is complete. -/
theorem Progress.isLinked_of_take {progress progress' : Progress} {token : Token}
    (h : progress.done ≠ [] ∨ progress.place.isLinked = true)
    (hstep : progress.take p nested token = .ok progress') :
    progress'.done ≠ [] ∨ progress'.place.isLinked = true := by
  rcases h with hdone | hlinked
  · exact .inl (done_ne_nil_of_take hdone hstep)
  rcases take_eq_ok_iff.1 hstep with ⟨-, rfl⟩ | ⟨-, done, hclose, rfl⟩ | ⟨c, k, -, hadd⟩ |
    ⟨s, -, -, rfl⟩
  · obtain ⟨done, place⟩ := progress
    cases place with
    | inside left compound => cases left <;> exact .inr hlinked
    | opening | leading _ | pending _ _ _ | behind _ => exact .inr hlinked
  · obtain ⟨chain, rfl⟩ := exists_of_close hclose
    exact .inl (by simp)
  · obtain ⟨done, place⟩ := progress
    cases place <;> cases hadd <;> exact .inr rfl
  · obtain ⟨done, place⟩ := progress
    cases place with
    | opening => cases hlinked
    | inside left compound => exact .inr hlinked
    | leading _ | pending _ _ _ | behind _ => exact .inr rfl

namespace Parser

/-- What goes on to the left is no single compound. -/
theorem resume_ne_only {inCompound : Bool} {position : Nat} {progress : Progress}
    {cs : List Char} (h : progress.done ≠ [] ∨ progress.place.isLinked = true) (c : Compound) :
    p.resume nested inCompound position progress cs ≠ .ok [.only c] := by
  intro hread
  obtain ⟨-, position', progress', hend, hfinish⟩ :=
    resume_preserves (P := fun _ progress => progress.done ≠ [] ∨ progress.place.isLinked = true)
      (fun _ _ _ _ _ _ hlinked hstep => Progress.isLinked_of_take hlinked hstep) h hread
  have hdone := Progress.done_eq_nil_of_finish hfinish
  have hclose := Progress.close_of_finish hfinish
  obtain ⟨done, place⟩ := progress'
  subst hdone
  have hlinked : place.isLinked = true := hend.resolve_left fun hne => hne rfl
  cases place with
  | opening | leading _ | pending _ _ _ => cases hclose
  | inside left compound =>
      cases left with
      | none => cases hlinked
      | some left => cases hclose
  | behind chain =>
      cases hclose
      cases hlinked

/-- The text of a single compound does not start with a combinator. -/
theorem ofChar?_head_of_parse_only {w : String} {c : Compound} (h : p.parse w = .ok [.only c]) :
    ∀ d ∈ (Text.trimStart w.toList).head?, Combinator.ofChar? d = none := by
  intro d hd
  cases hk : Combinator.ofChar? d with
  | none => rfl
  | some via =>
      obtain ⟨rest, hrest⟩ := List.head?_eq_some_iff.1 hd
      rw [parse, parseAt_eq_resume, resume_skip rfl, ← Text.trimStart, hrest, resume_cons,
        Token.take_combinator hk] at h
      exact absurd h (resume_ne_only (.inr rfl) c)

/-- **A leading combinator** is read as one after the scope root. -/
theorem resume_leading {k : Char} {via : Combinator} {stop : Nat} {cs : List Char}
    {l : SelectorList}
    (h : p.resume nested false stop ⟨[], .pending k via (.only [.scope])⟩ cs = .ok l) :
    p.resume nested false stop ⟨[], .leading via⟩ cs = .ok l := by
  rw [resume_skip rfl, ← Text.trimStart] at h ⊢
  generalize stop + _ = stop at h ⊢
  cases htext : Text.trimStart cs with
  | nil =>
      rw [htext, resume_nil] at h
      cases h
  | cons c rest =>
      have hblank : Text.isBlank c = false := by
        apply Text.not_isBlank_head_trimStart cs
        rw [htext]
        rfl
      rw [htext, resume_cons] at h
      rw [resume_cons]
      obtain ⟨progress, hstep, hrest⟩ := Outcome.bind_eq_ok_iff.1 h
      refine Outcome.bind_eq_ok_iff.2 ⟨progress, ?_, hrest⟩
      -- after a combinator only a simple selector is taken, and both places take it alike
      rcases Progress.take_eq_ok_iff.1 hstep with ⟨htoken, -⟩ | ⟨-, done, hclose, -⟩ |
        ⟨d, k', -, hadd⟩ | ⟨s, hs, -, rfl⟩
      · rw [Token.isBlank_of_take htoken] at hblank
        cases hblank
      · cases hclose
      · cases hadd
      · exact Progress.take_eq_ok_iff.2 (.inr (.inr (.inr ⟨s, hs, fun _ => rfl, rfl⟩)))

/-- **A combinator before a compound** puts the scope root on its left. -/
theorem parse_leading {w : String} {c : Compound} (h : p.parse w = .ok [.only c]) {k : Char}
    {via : Combinator} (hk : Combinator.ofChar? k = some via) :
    p.parse (String.singleton k ++ w) = .ok [.linked c via (.only [.scope])] := by
  have htext : (String.singleton k ++ w).toList = k :: w.toList := by simp
  rw [parse, parseAt_eq_resume, htext, resume_cons, Token.take_combinator hk]
  exact resume_leading
    (resume_awaited (.pending k) h (ofChar?_head_of_parse_only h) rfl _)

end Parser

/-! ### Matching -/

section Anchor

variable {m : Matcher} {x : NodeId} {via : Combinator}

theorem Complex.accepts_scope : (only [.scope]).accepts m x = (x == m.scope) := by
  simp [accepts, Simple.conditions, Simple.condition, Matcher.satisfies]

namespace Matcher

/-- The scope root is the parent of its children. -/
theorem relates_scope_child (h : m.tree.Forest) (hx : m.tree.Below x m.scope) :
    m.relates .child ((Complex.only [.scope]).accepts m) x =
      (m.tree.parent? x == some m.scope) := by
  rw [Bool.eq_iff_iff, relates_eq_true_iff h hx.within, and_iff_right (h.ne_of_below hx),
    beq_iff_eq]
  simp [Related, Complex.accepts_scope]

/-- The scope root is above everything in the scope. -/
theorem relates_scope_descendant (h : m.tree.Forest) (hx : m.tree.Below x m.scope) :
    m.relates .descendant ((Complex.only [.scope]).accepts m) x = true := by
  rw [relates_eq_true_iff h hx.within]
  exact ⟨h.ne_of_below hx, m.scope, ⟨hx, .refl⟩, by simp [Complex.accepts_scope]⟩

/-- The scope root is beside nothing in the scope. -/
theorem relates_scope_sideways (h : m.tree.Forest) (hx : m.tree.Below x m.scope)
    (hvia : via.isUpward = false) :
    m.relates via ((Complex.only [.scope]).accepts m) x = false := by
  rw [Bool.eq_false_iff, ne_eq, relates_eq_true_iff h hx.within]
  rintro ⟨-, y, hrelated, hy⟩
  have hbelow : m.tree.Below y m.scope := by
    cases via with
    | nextSibling => exact hx.of_mem_elementsBefore h (List.mem_of_getLast? hrelated)
    | subsequentSibling => exact hx.of_mem_elementsBefore h hrelated
    | descendant | child => cases hvia
  rw [Complex.accepts_scope, beq_iff_eq] at hy
  exact h.ne_of_below hbelow hy

end Matcher

end Anchor

/-! ### Selections -/

namespace Tree

variable {t : Tree} {engine : PatternEngine} {scope : NodeId}

/-- Beside the scope root nothing is selected. -/
theorem Forest.select_sideways (h : t.Forest) {via : Combinator} (hvia : via.isUpward = false)
    (c : Compound) : t.select engine scope [.linked c via (.only [.scope])] = .empty := by
  rw [Selection.mk.injEq]
  refine List.eq_nil_iff_forall_not_mem.2 fun x hx => ?_
  obtain ⟨-, hbelow, haccepts⟩ := h.mem_select.1 hx
  rw [h.accepts_singleton hbelow, Complex.accepts,
    Matcher.relates_scope_sideways (m := ⟨t, engine, scope⟩) h hbelow hvia, Bool.and_false]
    at haccepts
  cases haccepts

/-- **A leading combinator is anchored at the scope root.**  With `>` before a compound its
children are left of what the compound selects, with `:scope` and a blank all of it, and
with `+` or `~` nothing.  That is how the combinators are read before any text of the
compound. -/
theorem Reachable.select_anchored (h : Reachable t) (p : Parser) (scope : NodeId)
    (c : Compound) :
    (t.select p.engine scope [.linked c .child (.only [.scope])]).ids =
      (t.select p.engine scope [.only c]).ids.filter (fun x => t.parent? x == some scope) ∧
    t.select p.engine scope [.linked c .descendant (.only [.scope])] =
      t.select p.engine scope [.only c] ∧
    t.select p.engine scope [.linked c .nextSibling (.only [.scope])] = .empty ∧
    t.select p.engine scope [.linked c .subsequentSibling (.only [.scope])] = .empty ∧
    ∀ w, p.parse w = .ok [.only c] → ∀ k via, Combinator.ofChar? k = some via →
      p.parse (String.singleton k ++ w) = .ok [.linked c via (.only [.scope])] := by
  have hforest : t.Forest := h.forest
  have hbelow : ∀ x ∈ (t.select p.engine scope [.only c]).ids, t.Below x scope :=
    fun x hx => (hforest.mem_select.1 hx).2.1
  refine ⟨?_, ?_, hforest.select_sideways rfl c, hforest.select_sideways rfl c,
    fun w hw k via hk => Parser.parse_leading hw hk⟩
  · rw [hforest.select_linked (.inl rfl)]
    refine List.filter_congr fun x hx => ?_
    exact Matcher.relates_scope_child (m := ⟨t, p.engine, scope⟩) hforest (hbelow x hx)
  · rw [Selection.mk.injEq, hforest.select_linked (.inl rfl), List.filter_eq_self]
    intro x hx
    exact Matcher.relates_scope_descendant (m := ⟨t, p.engine, scope⟩) hforest (hbelow x hx)

/-- Of the second paragraphs below a division one is its child. -/
theorem select_anchored_paragraphs :
    let p : Parser := ⟨.standard, .literal⟩
    let second : Compound := [.type "p", .ordinal ⟨.eq, 1⟩]
    ∃ t : Tree, Reachable t ∧ (t.select p.engine 1 [.only second]).ids = [3, 5] ∧
      p.parse (String.singleton '>' ++ " p:eq(1)") =
        .ok [.linked second .child (.only [.scope])] ∧
      (t.select p.engine 1 [.linked second .child (.only [.scope])]).ids = [3] ∧
      t.select p.engine 1 [.linked second .nextSibling (.only [.scope])] = .empty := by
  intro p second
  have h := Reachable.empty.appendDescription .empty root (.element "div" .empty
    [.element "p" .empty [], .element "p" .empty
      [.element "p" .empty [], .element "p" .empty []]]) fun _ _ => by decide
  obtain ⟨hchild, -, hnext, -, hparse⟩ := Reachable.select_anchored h p 1 second
  exact ⟨_, h, by decide +kernel, hparse _ (by decide +kernel) _ _ rfl,
    hchild.trans (by decide +kernel), hnext⟩

end Tree

end MarkupQuery
