import MarkupQuery.Proofs.Walks
import MarkupQuery.Selector.Matching

/-!
# What selectors mean

The meaning of a selector, said through the tree alone: parents, lists of children, and
what is below what.  A chain holds at a node if a trail leads away from it: a sequence of
nodes, one for each compound from the subject outward, each of which satisfies its
compound and is related to the next one as the combinator between them says.

* `Matcher.Related` — what a combinator relates;
* `Matcher.placeAmong` — the place that an ordinal asks about;
* `Simple.Holds`, `Compound.Satisfied`, `Complex.Trail` — the three levels.
-/

namespace MarkupQuery

namespace Matcher

variable (m : Matcher)

/-- What a combinator relates: to a node the other nodes where the rest of a chain may
hold. -/
def Related (via : Combinator) (x y : NodeId) : Prop :=
  match via with
  | .descendant => m.tree.Below x y ∧ m.tree.Within y m.scope
  | .child => m.tree.parent? x = some y
  | .nextSibling => (m.tree.elementsBefore x).getLast? = some y
  | .subsequentSibling => y ∈ m.tree.elementsBefore x

/-- A combinator leads from a node to the start of a trail.  It leads nowhere from the
scope root. -/
def Leads (via : Combinator) (trail : List NodeId → Prop) (x : NodeId) : Prop :=
  x ≠ m.scope ∧ ∃ y rest, m.Related via x y ∧ trail (y :: rest)

open Classical in
/-- The place of a node among competitors: how many of the elements before it are such.
The scope root has the first place. -/
noncomputable def placeAmong (competitor : NodeId → Prop) (x : NodeId) : Nat :=
  if x = m.scope then 0 else (m.tree.elementsBefore x).countP (competitor ·)

end Matcher

mutual

/-- What a simple selector says about a node by itself.  An ordinal says nothing here:
it asks about the place of the node. -/
def Simple.Holds (m : Matcher) : Simple → NodeId → Prop
  | .type name, x => ∃ e, m.tree.element? x = some e ∧
      Text.sameAsciiCaseless (Text.trimmed e.tagName) name
  | .universal, x => m.tree.isElement x
  | .id name, x => ∃ e, m.tree.element? x = some e ∧
      ∃ own, e.id? = some own ∧ Text.sameAsciiCaseless own name
  | .ofClass name, x => ∃ e, m.tree.element? x = some e ∧ e.hasClass name
  | .attribute test, x => ∃ e, m.tree.element? x = some e ∧ test.holds m.engine e
  | .scope, x => x = m.scope
  | .structural test, x => ∃ e, m.tree.element? x = some e ∧ test.holds m.tree e x
  | .has list, x => m.tree.isElement x ∧ ∃ y, m.tree.Below y x ∧ m.tree.isElement y ∧
      ∃ c, ∃ _ : c ∈ list, ∃ rest, c.Trail { m with scope := x } (y :: rest)
  | .not list, x => m.tree.isElement x ∧ ∀ c ∈ list, ¬ ∃ rest, c.Trail m (x :: rest)
  | .contains extent text, x => m.tree.isElement x ∧
      Text.occursIn text.toList (Text.lowered (extent.textOf m.tree x)).toList
  | .finds extent pattern, x => m.tree.isElement x ∧
      m.engine.search pattern (extent.textOf m.tree x)
  | .ordinal _, _ => True
termination_by s => sizeOf s
decreasing_by
  · next hc =>
    have := List.sizeOf_lt_of_mem hc
    simp only [Simple.has.sizeOf_spec]
    omega
  · next hc =>
    have := List.sizeOf_lt_of_mem hc
    simp only [Simple.not.sizeOf_spec]
    omega

/-- A node satisfies a compound: every simple selector holds, and every ordinal accepts
the place of the node among the elements at which everything written before the ordinal
holds and from which the rest of the chain, `left`, goes on. -/
def Compound.Satisfied (m : Matcher) (left : NodeId → Prop) (compound : List Simple)
    (x : NodeId) : Prop :=
  (∀ s ∈ compound, s.Holds m x) ∧
    ∀ front o back, compound = front ++ .ordinal o :: back →
      o.accepts (m.placeAmong (fun y => left y ∧ ∀ s ∈ front, s.Holds m y) x)
termination_by sizeOf compound
decreasing_by
  · exact List.sizeOf_lt_of_mem (by assumption)
  · next hsplit hs =>
    rw [hsplit]
    exact List.sizeOf_lt_of_mem (List.mem_append_left _ hs)

/-- A sequence of nodes that a chain leads along, from its subject outward. -/
def Complex.Trail (m : Matcher) : Complex → List NodeId → Prop
  | .only compound, path => ∃ x, path = [x] ∧ Compound.Satisfied m (fun _ => True) compound x
  | .linked compound via left, path => ∃ x y rest, path = x :: y :: rest ∧
      Compound.Satisfied m (m.Leads via fun p => left.Trail m p) compound x ∧
      x ≠ m.scope ∧ m.Related via x y ∧ left.Trail m (y :: rest)
termination_by c => sizeOf c
decreasing_by
  · simp only [Complex.only.sizeOf_spec]
    omega
  all_goals
    simp only [Complex.linked.sizeOf_spec]
    omega

end

variable {m : Matcher} {x : NodeId}

theorem Simple.holds_has {list : SelectorList} :
    (Simple.has list).Holds m x ↔ m.tree.isElement x ∧ ∃ y, m.tree.Below y x ∧
      m.tree.isElement y ∧ ∃ c ∈ list, ∃ rest, c.Trail { m with scope := x } (y :: rest) := by
  simp [Simple.Holds]

/-- A chain of one compound holds where the compound is satisfied. -/
theorem Complex.exists_trail_only {compound : Compound} :
    (∃ rest, (Complex.only compound).Trail m (x :: rest)) ↔
      Compound.Satisfied m (fun _ => True) compound x := by
  simp [Complex.Trail, and_assoc]

/-- A chain of several compounds holds at a node that satisfies the first one and from
which the rest goes on. -/
theorem Complex.exists_trail_linked {compound : Compound} {via : Combinator} {left : Complex} :
    (∃ rest, (Complex.linked compound via left).Trail m (x :: rest)) ↔
      Compound.Satisfied m (m.Leads via (left.Trail m)) compound x ∧
        m.Leads via (left.Trail m) x := by
  constructor
  · intro h
    obtain ⟨rest, h⟩ := h
    rw [Complex.Trail] at h
    obtain ⟨x', y, further, hpath, hsat, hne, hrel, hleft⟩ := h
    obtain ⟨rfl, rfl⟩ := List.cons.inj hpath
    exact ⟨hsat, hne, y, further, hrel, hleft⟩
  · intro h
    obtain ⟨hsat, hne, y, further, hrel, hleft⟩ := h
    refine ⟨y :: further, ?_⟩
    rw [Complex.Trail]
    exact ⟨x, y, further, rfl, hsat, hne, hrel, hleft⟩

end MarkupQuery
