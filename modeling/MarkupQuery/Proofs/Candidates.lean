import MarkupQuery.Proofs.Occurrence
import MarkupQuery.Proofs.Selections

/-!
# What is not an element

Only elements can be selected, but any node can be tested.  Every simple selector looks
at the element that a node is, apart from `:scope`, which compares ids, and from ordinals,
which look at the elements before the node.  So a document, a text, a comment, and an id
that names no node pass a compound if it consists of ordinals alone.

* `Complex.exists_trail_iff` — a subject, and what leads on from it;
* `Compound.satisfied_of_not_element` — which compounds are satisfied elsewhere;
* `Reachable.accepts_of_not_element` — which lists accept more than elements.
-/

namespace MarkupQuery

open MarkupQuery.Tree

variable {m : Matcher} {x : NodeId}

/-! ### A subject and the rest -/

/-- What a chain asks for beside its subject: its combinator leads on. -/
def Complex.LeadsOn (m : Matcher) : Complex → NodeId → Prop
  | .only _, _ => True
  | .linked _ via left, x => m.Leads via (left.Trail m) x

/-- A trail leads away from a node that satisfies the subject and from which the rest of
the chain goes on. -/
theorem Complex.exists_trail_iff (c : Complex) :
    (∃ rest, c.Trail m (x :: rest)) ↔
      Compound.Satisfied m (c.LeadsOn m) c.subject x ∧ c.LeadsOn m x := by
  cases c with
  | only compound =>
      rw [exists_trail_only]
      exact (and_iff_left trivial).symm
  | linked compound via left => exact exists_trail_linked

/-! ### Compounds -/

/-- Where there is no element, only ordinals hold. -/
theorem Simple.holds_of_not_element {s : Simple} (hx : m.tree.isElement x = false)
    (hs : s ≠ .scope) : s.Holds m x ↔ s.isOrdinal = true := by
  have hnone : m.tree.element? x = none := by simpa [isElement] using hx
  cases s with
  | scope => exact absurd rfl hs
  | _ => simp [Simple.Holds, isOrdinal, hx, hnone]

theorem Simple.holds_of_isOrdinal {s : Simple} (hs : s.isOrdinal = true) : s.Holds m x := by
  cases s with
  | ordinal o => simp [Simple.Holds]
  | _ => cases hs

/-- Ordinals alone all ask for one place: those before an ordinal leave its competitors. -/
theorem Compound.satisfied_of_isOrdinal {left : NodeId → Prop} {compound : Compound}
    (hordinals : ∀ s ∈ compound, s.isOrdinal = true) :
    Compound.Satisfied m left compound x ↔
      ∀ o, .ordinal o ∈ compound → o.accepts (m.placeAmong left x) = true := by
  have hpool : ∀ front o back, compound = front ++ .ordinal o :: back →
      (fun y => left y ∧ ∀ s ∈ front, s.Holds m y) = left := by
    intro front o back hsplit
    funext y
    rw [eq_iff_iff]
    refine and_iff_left fun s hs => Simple.holds_of_isOrdinal (hordinals s ?_)
    rw [hsplit]
    exact List.mem_append_left _ hs
  rw [Compound.Satisfied,
    and_iff_right fun s hs => Simple.holds_of_isOrdinal (hordinals s hs)]
  constructor
  · intro haccepts o ho
    obtain ⟨front, back, hsplit⟩ := List.append_of_mem ho
    rw [← hpool front o back hsplit]
    exact haccepts front o back hsplit
  · intro haccepts front o back hsplit
    rw [hpool front o back hsplit]
    exact haccepts o (by simp [hsplit])

/-- **Compounds without an element.**  They consist of ordinals alone, all of which accept
the place among the elements from which the rest of the chain goes on. -/
theorem Compound.satisfied_of_not_element {left : NodeId → Prop} {compound : Compound}
    (hx : m.tree.isElement x = false) (hscope : .scope ∉ compound) :
    Compound.Satisfied m left compound x ↔ ∀ s ∈ compound,
      ∃ o, s = .ordinal o ∧ o.accepts (m.placeAmong left x) = true := by
  constructor
  · intro hsat
    have hordinals : ∀ s ∈ compound, s.isOrdinal = true := by
      rw [Compound.Satisfied] at hsat
      intro s hs
      exact (Simple.holds_of_not_element hx fun heq => hscope (heq ▸ hs)).1 (hsat.1 s hs)
    rw [Compound.satisfied_of_isOrdinal hordinals] at hsat
    intro s hs
    cases s with
    | ordinal o => exact ⟨o, rfl, hsat o hs⟩
    | _ => cases hordinals _ hs
  · intro haccepts
    have hordinals : ∀ s ∈ compound, s.isOrdinal = true := by
      intro s hs
      obtain ⟨o, rfl, -⟩ := haccepts s hs
      rfl
    rw [Compound.satisfied_of_isOrdinal hordinals]
    intro o ho
    obtain ⟨o', heq, hplace⟩ := haccepts (.ordinal o) ho
    obtain rfl := Simple.ordinal.inj heq
    exact hplace

/-! ### Lists of alternatives -/

namespace Tree

variable {t : Tree} {engine : PatternEngine} {scope : NodeId} {list : SelectorList}

/-- **What is accepted beside elements.**  If `:scope` does not occur, a node that is no
element is accepted just when it is within the scope and the subject of an alternative
consists of ordinals alone, which accept the place of the node among the elements from
which the rest of the chain goes on, as it does from the node.  So only elements are
accepted if every subject asks for more than a place. -/
theorem Reachable.accepts_of_not_element (h : Reachable t) (engine : PatternEngine)
    (scope : NodeId) (hscope : .scope ∉ Complex.allOccurring list)
    (hx : t.isElement x = false) :
    (t.accepts engine scope list x = true ↔ t.Within x scope ∧ ∃ c ∈ list,
      c.LeadsOn ⟨t, engine, scope⟩ x ∧ ∀ s ∈ c.subject, ∃ o, s = .ordinal o ∧
        o.accepts (Matcher.placeAmong ⟨t, engine, scope⟩
          (c.LeadsOn ⟨t, engine, scope⟩) x) = true) ∧
    ((∀ c ∈ list, ∃ s ∈ c.subject, s.isOrdinal = false) →
      t.accepts engine scope list x = false) := by
  have hforest : t.Forest := h.forest
  have hiff : t.accepts engine scope list x = true ↔ t.Within x scope ∧ ∃ c ∈ list,
      c.LeadsOn ⟨t, engine, scope⟩ x ∧ ∀ s ∈ c.subject, ∃ o, s = .ordinal o ∧
        o.accepts (Matcher.placeAmong ⟨t, engine, scope⟩
          (c.LeadsOn ⟨t, engine, scope⟩) x) = true := by
    rw [hforest.accepts_iff, Complex.anyAccepts_iff]
    refine and_congr_right fun hwithin => exists_congr fun c => and_congr_right fun hc => ?_
    have hsubject : .scope ∉ c.subject := by
      intro hmem
      exact hscope (Complex.mem_allOccurring.2
        ⟨c, hc, Complex.mem_occurring_of_mem_subject hmem⟩)
    rw [c.decided ⟨t, engine, scope⟩ x hforest hwithin, c.exists_trail_iff,
      Compound.satisfied_of_not_element hx hsubject, and_comm]
  refine ⟨hiff, fun hmore => ?_⟩
  rw [Bool.eq_false_iff, ne_eq, hiff]
  intro haccepts
  obtain ⟨-, c, hc, -, hordinals⟩ := haccepts
  obtain ⟨s, hs, hnot⟩ := hmore c hc
  obtain ⟨o, rfl, -⟩ := hordinals s hs
  cases hnot

/-- The text in a paragraph comes after one element, and that is all that `:gt(0)` asks
about; what is bold is asked for more. -/
theorem accepts_of_not_element_text :
    ∃ t : Tree, Reachable t ∧ t.text? 3 = some "x" ∧ t.Within 3 root ∧
      t.accepts ⟨fun _ => .error ""⟩ root [.only [.type "b", .ordinal ⟨.gt, 0⟩]] 3 = false := by
  have h := Reachable.empty.appendDescription .empty root
    (.element "p" .empty [.element "b" .empty [], .text "x"]) fun _ _ => by decide
  have hplace : Simple.scope ∉ Complex.allOccurring [.only [.ordinal ⟨.gt, 0⟩]] := by
    decide +kernel
  have hbold : Simple.scope ∉
      Complex.allOccurring [.only [.type "b", .ordinal ⟨.gt, 0⟩]] := by
    decide +kernel
  refine ⟨_, h, by decide +kernel, ?_, ?_⟩
  · exact ((Reachable.accepts_of_not_element h ⟨fun _ => .error ""⟩ root hplace
      (by decide +kernel)).1.1 (by decide +kernel)).1
  · exact (Reachable.accepts_of_not_element h ⟨fun _ => .error ""⟩ root hbold
      (by decide +kernel)).2 (by decide)

/-- The document and a text in a paragraph have the first place and are accepted by a
selector that asks for nothing else. -/
theorem accepts_first_place :
    let p : Parser := ⟨.standard, .literal⟩
    ∃ t : Tree, Reachable t ∧ t.kind? 0 = some .document ∧ t.kind? 2 = some (.text "x") ∧
      ∃ list : SelectorList, p.parse ":eq(0)" = .ok list ∧
        .scope ∉ Complex.allOccurring list ∧
        t.accepts p.engine root list 0 = true ∧ t.accepts p.engine root list 2 = true := by
  intro p
  have h := Reachable.empty.appendDescription .empty root
    (.element "p" .empty [.text "x"]) fun _ _ => by decide
  exact ⟨_, h, by decide +kernel, by decide +kernel, [.only [.ordinal ⟨.eq, 0⟩]],
    by decide +kernel, by decide +kernel, by decide +kernel, by decide +kernel⟩

end Tree

end MarkupQuery
