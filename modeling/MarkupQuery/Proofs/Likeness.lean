import MarkupQuery.Proofs.Attributes
import MarkupQuery.Proofs.Occurrence
import MarkupQuery.Proofs.Selections
import Mathlib.Data.List.Forall2

/-!
# Trees that look alike

Two trees look alike along a relation of their nodes if a matcher that starts at related
nodes meets related nodes on all its walks, and the elements there answer alike.  No
selector can tell such trees apart, as long as it asks for nothing else that differs.

* `Tree.Alike` — what the walks meet is related;
* `Simple.KeptAlong` — what a simple selector reads beyond that is the same;
* `Complex.sameAlong` — a chain accepts related nodes alike;
* `Alike.select`, `Alike.accepts` — so do selections and tests.
-/

namespace MarkupQuery

/-! ### Lists of related members -/

section Lists

variable {α β : Type} {R : α → β → Prop} {l₁ : List α} {l₂ : List β} {p : α → Bool} {q : β → Bool}

/-- What agrees on related members gives the same answers in order. -/
theorem map_eq_of_forall₂ {γ : Type} {f : α → γ} {g : β → γ} (h : List.Forall₂ R l₁ l₂)
    (hfg : ∀ a ∈ l₁, ∀ b, R a b → g b = f a) : l₂.map g = l₁.map f := by
  induction h with
  | nil => rfl
  | cons hab _ ih =>
      obtain ⟨hhead, htail⟩ := List.forall_mem_cons.1 hfg
      rw [List.map_cons, List.map_cons, hhead _ hab, ih htail]

theorem any_eq_of_forall₂ (h : List.Forall₂ R l₁ l₂) (hpq : ∀ a ∈ l₁, ∀ b, R a b → q b = p a) :
    l₂.any q = l₁.any p := by
  simpa [Function.comp_def] using congrArg (List.any · id) (map_eq_of_forall₂ h hpq)

theorem countP_eq_of_forall₂ (h : List.Forall₂ R l₁ l₂)
    (hpq : ∀ a ∈ l₁, ∀ b, R a b → q b = p a) : l₂.countP q = l₁.countP p := by
  simpa [List.countP_map, Function.comp_def] using
    congrArg (List.countP id) (map_eq_of_forall₂ h hpq)

/-- Tests that agree on related members leave related members. -/
theorem forall₂_filter (h : List.Forall₂ R l₁ l₂) (hpq : ∀ a ∈ l₁, ∀ b, R a b → q b = p a) :
    List.Forall₂ R (l₁.filter p) (l₂.filter q) := by
  induction h with
  | nil => exact .nil
  | cons hab _ ih =>
      obtain ⟨hhead, htail⟩ := List.forall_mem_cons.1 hpq
      rw [List.filter_cons, List.filter_cons, hhead _ hab]
      split
      · exact .cons hab (ih htail)
      · exact ih htail

/-- Tests that agree on related members stop at related members. -/
theorem forall₂_takeWhile (h : List.Forall₂ R l₁ l₂)
    (hpq : ∀ a ∈ l₁, ∀ b, R a b → q b = p a) :
    List.Forall₂ R (l₁.takeWhile p) (l₂.takeWhile q) := by
  induction h with
  | nil => exact .nil
  | cons hab _ ih =>
      obtain ⟨hhead, htail⟩ := List.forall_mem_cons.1 hpq
      rw [List.takeWhile_cons, List.takeWhile_cons, hhead _ hab]
      split
      · exact .cons hab (ih htail)
      · exact .nil

theorem isSome_eq_of_rel {a : Option α} {b : Option β} (h : Option.Rel R a b) :
    b.isSome = a.isSome := by
  cases h <;> rfl

/-- Tests that agree on related members agree on options of them. -/
theorem any_eq_of_rel {a : Option α} {b : Option β} (h : Option.Rel R a b)
    (hpq : ∀ a b, R a b → q b = p a) : b.any q = a.any p := by
  cases h with
  | none => rfl
  | some hab => exact hpq _ _ hab

end Lists

namespace Tree

/-- Two trees whose links agree look alike along a relation of their nodes.  Different
nodes have different counterparts, and those of elements answer alike.  Below a scope root
that has a counterpart, the parent of a related node and the elements before it have
counterparts, and so have the elements below any related node. -/
structure Alike (t₁ t₂ : Tree) (R : NodeId → NodeId → Prop) : Prop where
  forest₁ : t₁.Forest
  forest₂ : t₂.Forest
  eq_iff : ∀ {x₁ x₂ y₁ y₂}, R x₁ x₂ → R y₁ y₂ → (x₁ = y₁ ↔ x₂ = y₂)
  element? : ∀ {x₁ x₂}, R x₁ x₂ → Option.Rel Element.ReadAlike (t₁.element? x₁) (t₂.element? x₂)
  parent? : ∀ {s₁ s₂ x₁ x₂ p₁}, R s₁ s₂ → R x₁ x₂ → t₁.Below x₁ s₁ → t₁.parent? x₁ = some p₁ →
    ∃ p₂, t₂.parent? x₂ = some p₂ ∧ R p₁ p₂
  elementsBefore : ∀ {s₁ s₂ x₁ x₂}, R s₁ s₂ → R x₁ x₂ → t₁.Below x₁ s₁ →
    List.Forall₂ R (t₁.elementsBefore x₁) (t₂.elementsBefore x₂)
  elementsBelow : ∀ {x₁ x₂}, R x₁ x₂ → List.Forall₂ R
    ((t₁.descendants x₁).filter t₁.isElement) ((t₂.descendants x₂).filter t₂.isElement)

end Tree

open MarkupQuery.Tree

variable {t₁ t₂ : Tree} {R : NodeId → NodeId → Prop} {engine : PatternEngine}
  {s₁ s₂ x₁ x₂ : NodeId} {competes₁ competes₂ : NodeId → Bool}

/-! ### Walks -/

namespace Tree.Alike

theorem isElement (h : t₁.Alike t₂ R) (hx : R x₁ x₂) : t₂.isElement x₂ = t₁.isElement x₁ :=
  isSome_eq_of_rel (h.element? hx)

/-- What is below a scope root has its counterpart below that of the scope root. -/
theorem below (h : t₁.Alike t₂ R) (hs : R s₁ s₂) (hx : R x₁ x₂) (hbelow : t₁.Below x₁ s₁) :
    t₂.Below x₂ s₂ := by
  induction hbelow using Relation.TransGen.head_induction_on generalizing x₂ with
  | single hlink =>
      obtain ⟨p₂, hp₂, hp⟩ := h.parent? hs hx (.single hlink) hlink
      obtain rfl : s₂ = p₂ := (h.eq_iff hs hp).1 rfl
      exact .single hp₂
  | head hlink hrest ih =>
      obtain ⟨p₂, hp₂, hp⟩ := h.parent? hs hx (.head hlink hrest) hlink
      exact .head hp₂ (ih hp)

/-- The ways up to the scope roots meet related nodes. -/
theorem scopedAncestors (h : t₁.Alike t₂ R) (hs : R s₁ s₂) (hx : R x₁ x₂)
    (hbelow : t₁.Below x₁ s₁) :
    List.Forall₂ R (Matcher.scopedAncestors ⟨t₁, engine, s₁⟩ x₁)
      (Matcher.scopedAncestors ⟨t₂, engine, s₂⟩ x₂) := by
  unfold Matcher.scopedAncestors
  induction hbelow using Relation.TransGen.head_induction_on generalizing x₂ with
  | single hlink =>
      obtain ⟨p₂, hp₂, hp⟩ := h.parent? hs hx (.single hlink) hlink
      obtain rfl : s₂ = p₂ := (h.eq_iff hs hp).1 rfl
      rw [h.forest₁.ancestors_eq_cons hlink, h.forest₂.ancestors_eq_cons hp₂, Matcher.upTo,
        Matcher.upTo, if_pos rfl, if_pos rfl]
      exact .cons hs .nil
  | @head x₁ p₁ hlink hrest ih =>
      obtain ⟨p₂, hp₂, hp⟩ := h.parent? hs hx (.head hlink hrest) hlink
      have hne : p₁ ≠ s₁ := h.forest₁.ne_of_below hrest
      have hne₂ : p₂ ≠ s₂ := fun heq => hne ((h.eq_iff hp hs).2 heq)
      rw [h.forest₁.ancestors_eq_cons hlink, h.forest₂.ancestors_eq_cons hp₂, Matcher.upTo,
        Matcher.upTo, if_neg hne, if_neg hne₂]
      exact .cons hp (ih hp)

theorem precedingElements (h : t₁.Alike t₂ R) (hs : R s₁ s₂) (hx : R x₁ x₂)
    (hbelow : t₁.Below x₁ s₁) :
    List.Forall₂ R (t₁.precedingElements x₁) (t₂.precedingElements x₂) := by
  rw [h.forest₁.precedingElements_eq, h.forest₂.precedingElements_eq, List.forall₂_reverse_iff]
  exact h.elementsBefore hs hx hbelow

/-- **A combinator leads to related nodes.** -/
theorem reached (h : t₁.Alike t₂ R) (hs : R s₁ s₂) (hx : R x₁ x₂)
    (hbelow : t₁.Below x₁ s₁) (via : Combinator) :
    List.Forall₂ R (Matcher.reached ⟨t₁, engine, s₁⟩ via x₁)
      (Matcher.reached ⟨t₂, engine, s₂⟩ via x₂) := by
  cases via with
  | descendant => exact h.scopedAncestors hs hx hbelow
  | child =>
      obtain ⟨p₁, hlink, -⟩ := Relation.TransGen.head'_iff.1 hbelow
      obtain ⟨p₂, hp₂, hp⟩ := h.parent? hs hx hbelow hlink
      have hlink : t₁.parent? x₁ = some p₁ := hlink
      simpa [Matcher.reached, hlink, hp₂] using hp
  | nextSibling =>
      have hbefore := h.precedingElements hs hx hbelow
      unfold Matcher.reached
      revert hbefore
      generalize t₁.precedingElements x₁ = l₁, t₂.precedingElements x₂ = l₂
      intro hbefore
      cases hbefore with
      | nil => simp
      | cons hab _ => simpa using hab
  | subsequentSibling => exact h.precedingElements hs hx hbelow

/-- Related nodes are related alike to what the rest of a chain accepts. -/
theorem relates (h : t₁.Alike t₂ R) (hs : R s₁ s₂) {left₁ left₂ : NodeId → Bool}
    (hleft : ∀ y₁ y₂, R y₁ y₂ → t₁.Within y₁ s₁ → left₂ y₂ = left₁ y₁)
    (hx : R x₁ x₂) (hwithin : t₁.Within x₁ s₁) (via : Combinator) :
    Matcher.relates ⟨t₂, engine, s₂⟩ via left₂ x₂ =
      Matcher.relates ⟨t₁, engine, s₁⟩ via left₁ x₁ := by
  unfold Matcher.relates
  by_cases hne : x₁ = s₁
  · have hne₂ : x₂ = s₂ := (h.eq_iff hx hs).1 hne
    simp [hne, hne₂]
  · have hne₂ : x₂ ≠ s₂ := fun heq => hne ((h.eq_iff hx hs).2 heq)
    have hbelow : t₁.Below x₁ s₁ := below_of_within hwithin hne
    rw [bne_iff_ne.2 hne, bne_iff_ne.2 hne₂, Bool.true_and, Bool.true_and]
    refine any_eq_of_forall₂ (h.reached hs hx hbelow via) fun y₁ hy₁ y₂ hy => ?_
    have hrelated := (Matcher.mem_reached h.forest₁ hbelow via).1 hy₁
    exact hleft y₁ y₂ hy (hrelated.within h.forest₁ hbelow)

/-- Related nodes have the same rank. -/
theorem rank (h : t₁.Alike t₂ R) (hs : R s₁ s₂)
    (hcompetes : ∀ y₁ y₂, R y₁ y₂ → t₁.Within y₁ s₁ → competes₂ y₂ = competes₁ y₁)
    (hx : R x₁ x₂) (hwithin : t₁.Within x₁ s₁) :
    Matcher.rank ⟨t₂, engine, s₂⟩ competes₂ x₂ = Matcher.rank ⟨t₁, engine, s₁⟩ competes₁ x₁ := by
  unfold Matcher.rank
  by_cases hne : x₁ = s₁
  · have hne₂ : x₂ = s₂ := (h.eq_iff hx hs).1 hne
    simp [hne, hne₂]
  · have hne₂ : x₂ ≠ s₂ := fun heq => hne ((h.eq_iff hx hs).2 heq)
    have hbelow : t₁.Below x₁ s₁ := below_of_within hwithin hne
    rw [if_neg hne, if_neg hne₂]
    refine countP_eq_of_forall₂ (h.precedingElements hs hx hbelow) ?_
    intro y₁ hy₁ y₂ hy
    rw [h.forest₁.precedingElements_eq, List.mem_reverse] at hy₁
    exact hcompetes y₁ y₂ hy (hbelow.of_mem_elementsBefore h.forest₁ hy₁).within

end Tree.Alike

/-! ### Selectors -/

/-- What a simple selector reads beside what the walks meet is the same at related nodes:
the place that a structural condition asks about, and the text. -/
def Simple.KeptAlong (t₁ t₂ : Tree) (R : NodeId → NodeId → Prop) : Simple → Prop
  | .structural test => ∀ x₁ x₂ e₁ e₂, R x₁ x₂ → t₁.element? x₁ = some e₁ →
      t₂.element? x₂ = some e₂ → test.holds t₂ e₂ x₂ = test.holds t₁ e₁ x₁
  | .contains extent _ | .finds extent _ =>
      ∀ x₁ x₂, R x₁ x₂ → extent.textOf t₂ x₂ = extent.textOf t₁ x₁
  | _ => True

/-- A simple selector says the same about related nodes. -/
def Simple.SameAlong (t₁ t₂ : Tree) (R : NodeId → NodeId → Prop) (s : Simple) : Prop :=
  ∀ (engine : PatternEngine) (s₁ s₂ x₁ x₂ : NodeId), R s₁ s₂ → R x₁ x₂ → t₁.Within x₁ s₁ →
    s.test ⟨t₂, engine, s₂⟩ x₂ = s.test ⟨t₁, engine, s₁⟩ x₁

/-- A chain accepts related nodes alike. -/
def Complex.SameAlong (t₁ t₂ : Tree) (R : NodeId → NodeId → Prop) (c : Complex) : Prop :=
  ∀ (engine : PatternEngine) (s₁ s₂ x₁ x₂ : NodeId), R s₁ s₂ → R x₁ x₂ → t₁.Within x₁ s₁ →
    c.accepts ⟨t₂, engine, s₂⟩ x₂ = c.accepts ⟨t₁, engine, s₁⟩ x₁

/-- A compound of such parts is satisfied alike. -/
theorem Tree.Alike.satisfies (h : t₁.Alike t₂ R)
    (hs : R s₁ s₂) {compound : Compound} (hparts : ∀ s ∈ compound, s.SameAlong t₁ t₂ R)
    (hcompetes : ∀ y₁ y₂, R y₁ y₂ → t₁.Within y₁ s₁ → competes₂ y₂ = competes₁ y₁)
    (hx : R x₁ x₂) (hwithin : t₁.Within x₁ s₁) :
    Matcher.satisfies ⟨t₂, engine, s₂⟩ competes₂ (Simple.conditions ⟨t₂, engine, s₂⟩ compound) x₂ =
      Matcher.satisfies ⟨t₁, engine, s₁⟩ competes₁
        (Simple.conditions ⟨t₁, engine, s₁⟩ compound) x₁ := by
  -- the parts before an ordinal leave the same competitors
  have hrank : ∀ front s back, compound = front ++ s :: back →
      Matcher.rank ⟨t₂, engine, s₂⟩
          (fun y => competes₂ y && front.all (·.test ⟨t₂, engine, s₂⟩ y)) x₂ =
        Matcher.rank ⟨t₁, engine, s₁⟩
          (fun y => competes₁ y && front.all (·.test ⟨t₁, engine, s₁⟩ y)) x₁ := by
    intro front s back hsplit
    refine h.rank hs (fun y₁ y₂ hy hwithin => ?_) hx hwithin
    rw [hcompetes y₁ y₂ hy hwithin, Bool.eq_iff_iff, Bool.and_eq_true, Bool.and_eq_true,
      List.all_eq_true, List.all_eq_true]
    refine and_congr_right fun _ => forall₂_congr fun s' hs' => ?_
    rw [hparts s' (hsplit ▸ List.mem_append_left _ hs') engine s₁ s₂ y₁ y₂ hs hy hwithin]
  rw [Bool.eq_iff_iff, Matcher.satisfies_iff, Matcher.satisfies_iff]
  refine and_congr (forall₂_congr fun s hmem => ?_) (forall₄_congr fun front s back hsplit => ?_)
  · rw [hparts s hmem engine s₁ s₂ x₁ x₂ hs hx hwithin]
  · rw [hrank front s back hsplit]

theorem Complex.anyAccepts_eq_of_sameAlong {list : SelectorList}
    (hlist : ∀ c ∈ list, c.SameAlong t₁ t₂ R) (hs : R s₁ s₂) (hx : R x₁ x₂)
    (hwithin : t₁.Within x₁ s₁) :
    Complex.anyAccepts ⟨t₂, engine, s₂⟩ list x₂ = Complex.anyAccepts ⟨t₁, engine, s₁⟩ list x₁ := by
  rw [Bool.eq_iff_iff, anyAccepts_iff, anyAccepts_iff]
  refine exists_congr fun c => and_congr_right fun hc => ?_
  rw [hlist c hc engine s₁ s₂ x₁ x₂ hs hx hwithin]

theorem Simple.has_sameAlong (h : t₁.Alike t₂ R) {list : SelectorList}
    (hlist : ∀ c ∈ list, c.SameAlong t₁ t₂ R) : (Simple.has list).SameAlong t₁ t₂ R := by
  intro engine s₁ s₂ x₁ x₂ _ hx _
  rw [test_has, test_has, h.isElement hx]
  congr 1
  refine any_eq_of_forall₂ (h.elementsBelow hx) fun y₁ hy₁ y₂ hy => ?_
  have hbelow : t₁.Below y₁ x₁ := h.forest₁.mem_descendants.1 (List.mem_filter.1 hy₁).1
  exact Complex.anyAccepts_eq_of_sameAlong hlist hx hy hbelow.within

theorem Simple.not_sameAlong (h : t₁.Alike t₂ R) {list : SelectorList}
    (hlist : ∀ c ∈ list, c.SameAlong t₁ t₂ R) : (Simple.not list).SameAlong t₁ t₂ R := by
  intro engine s₁ s₂ x₁ x₂ hs hx hwithin
  rw [test_not, test_not, h.isElement hx, Complex.anyAccepts_eq_of_sameAlong hlist hs hx hwithin]

/-- A simple selector that holds no others says the same where it reads the same. -/
theorem Simple.leaf_sameAlong (h : t₁.Alike t₂ R) {s : Simple} (hhas : ∀ l, s ≠ .has l)
    (hnot : ∀ l, s ≠ .not l) (hkept : s.KeptAlong t₁ t₂ R) : s.SameAlong t₁ t₂ R := by
  intro engine s₁ s₂ x₁ x₂ hs hx _
  have he := h.element? hx
  cases s with
  | has l => exact absurd rfl (hhas l)
  | not l => exact absurd rfl (hnot l)
  | scope =>
      rw [Bool.eq_iff_iff]
      simp [test, condition, h.eq_iff hx hs]
  | structural test =>
      have hsame := hkept x₁ x₂
      simp only [Simple.test, condition, Matcher.onElement]
      generalize t₁.element? x₁ = o₁, t₂.element? x₂ = o₂ at he hsame
      cases he with
      | none => rfl
      | some _ => exact hsame _ _ hx rfl rfl
  | contains extent _ =>
      simp only [test, condition, Matcher.onElement, hkept x₁ x₂ hx]
      exact any_eq_of_rel he fun _ _ _ => rfl
  | finds extent _ =>
      simp only [test, condition, Matcher.onElement, hkept x₁ x₂ hx]
      exact any_eq_of_rel he fun _ _ _ => rfl
  | ordinal _ => rfl
  | universal => exact any_eq_of_rel he fun _ _ _ => rfl
  | type name =>
      simp only [test, condition, Matcher.onElement]
      exact any_eq_of_rel he fun e₁ e₂ hread => by rw [hread.tagName]
  | id name =>
      simp only [test, condition, Matcher.onElement]
      exact any_eq_of_rel he fun e₁ e₂ hread => by rw [hread.id?_eq]
  | ofClass name => exact any_eq_of_rel he fun e₁ e₂ hread => hread.hasClass_eq name
  | «attribute» test => exact any_eq_of_rel he fun e₁ e₂ hread => hread.holds_eq engine test

mutual

/-- **No simple selector tells the trees apart** if all that occur in it read the same. -/
theorem Simple.sameAlong (h : t₁.Alike t₂ R) : ∀ s : Simple,
    (∀ s' ∈ s.occurring, s'.KeptAlong t₁ t₂ R) → s.SameAlong t₁ t₂ R
  | .has list, hkept =>
    Simple.has_sameAlong h
      (Complex.all_sameAlong h list fun s' hs' => hkept s' (List.mem_cons_of_mem _ hs'))
  | .not list, hkept =>
    Simple.not_sameAlong h
      (Complex.all_sameAlong h list fun s' hs' => hkept s' (List.mem_cons_of_mem _ hs'))
  | .type _, hkept | .universal, hkept | .id _, hkept | .ofClass _, hkept | .attribute _, hkept
  | .scope, hkept | .structural _, hkept | .contains _ _, hkept | .finds _ _, hkept
  | .ordinal _, hkept =>
    Simple.leaf_sameAlong h (by simp) (by simp) (hkept _ (Simple.mem_occurring_self _))

theorem Simple.all_sameAlong (h : t₁.Alike t₂ R) : ∀ compound : List Simple,
    (∀ s' ∈ Simple.allOccurring compound, s'.KeptAlong t₁ t₂ R) →
    ∀ s ∈ compound, s.SameAlong t₁ t₂ R
  | [], _ => by simp
  | s :: rest, hkept => by
    rw [Simple.allOccurring, List.forall_mem_append] at hkept
    exact List.forall_mem_cons.2
      ⟨Simple.sameAlong h s hkept.1, Simple.all_sameAlong h rest hkept.2⟩

/-- **No chain tells the trees apart** if all that occurs in it reads the same. -/
theorem Complex.sameAlong (h : t₁.Alike t₂ R) : ∀ c : Complex,
    (∀ s ∈ c.occurring, s.KeptAlong t₁ t₂ R) → c.SameAlong t₁ t₂ R
  | .only compound, hkept => by
    have hparts := Simple.all_sameAlong h compound hkept
    intro engine s₁ s₂ x₁ x₂ hs hx hwithin
    rw [Complex.accepts, Complex.accepts]
    exact h.satisfies hs hparts (fun _ _ _ _ => rfl) hx hwithin
  | .linked compound via left, hkept => by
    rw [Complex.occurring, List.forall_mem_append] at hkept
    have hparts := Simple.all_sameAlong h compound hkept.1
    have hleft := Complex.sameAlong h left hkept.2
    intro engine s₁ s₂ x₁ x₂ hs hx hwithin
    have hrelates : ∀ y₁ y₂, R y₁ y₂ → t₁.Within y₁ s₁ →
        Matcher.relates ⟨t₂, engine, s₂⟩ via (left.accepts ⟨t₂, engine, s₂⟩) y₂ =
          Matcher.relates ⟨t₁, engine, s₁⟩ via (left.accepts ⟨t₁, engine, s₁⟩) y₁ :=
      fun y₁ y₂ hy hwithin => h.relates hs
        (fun z₁ z₂ hz hz₁ => hleft engine s₁ s₂ z₁ z₂ hs hz hz₁) hy hwithin via
    rw [Complex.accepts, Complex.accepts, hrelates x₁ x₂ hx hwithin,
      h.satisfies hs hparts hrelates hx hwithin]

theorem Complex.all_sameAlong (h : t₁.Alike t₂ R) : ∀ list : List Complex,
    (∀ s ∈ Complex.allOccurring list, s.KeptAlong t₁ t₂ R) → ∀ c ∈ list, c.SameAlong t₁ t₂ R
  | [], _ => by simp
  | c :: rest, hkept => by
    rw [Complex.allOccurring, List.forall_mem_append] at hkept
    exact List.forall_mem_cons.2
      ⟨Complex.sameAlong h c hkept.1, Complex.all_sameAlong h rest hkept.2⟩

end

/-! ### Selections and tests -/

namespace Tree.Alike

variable {list : SelectorList}

/-- **Selections correspond.**  Below related scope roots related elements are selected,
in the same order. -/
theorem select (h : t₁.Alike t₂ R) (engine : PatternEngine) (hs : R s₁ s₂)
    (hkept : ∀ s ∈ Complex.allOccurring list, s.KeptAlong t₁ t₂ R) :
    List.Forall₂ R (t₁.select engine s₁ list).ids (t₂.select engine s₂ list).ids := by
  have hselect : ∀ (t : Tree) (s : NodeId), (t.select engine s list).ids =
      ((t.descendants s).filter t.isElement).filter
        (Complex.anyAccepts ⟨t, engine, s⟩ list) := by
    intro t s
    simp only [Tree.select, Matcher.selectAll, List.filter_filter, Bool.and_comm]
  rw [hselect, hselect]
  refine forall₂_filter (h.elementsBelow hs) fun y₁ hy₁ y₂ hy => ?_
  have hbelow : t₁.Below y₁ s₁ := h.forest₁.mem_descendants.1 (List.mem_filter.1 hy₁).1
  exact Complex.anyAccepts_eq_of_sameAlong (Complex.all_sameAlong h list hkept) hs hy
    hbelow.within

/-- **Tests agree** at related nodes of related scopes. -/
theorem accepts (h : t₁.Alike t₂ R) (engine : PatternEngine) (hs : R s₁ s₂)
    (hkept : ∀ s ∈ Complex.allOccurring list, s.KeptAlong t₁ t₂ R) (hx : R x₁ x₂)
    (hwithin : t₁.Within x₁ s₁) :
    t₂.accepts engine s₂ list x₂ = t₁.accepts engine s₁ list x₁ := by
  have hany : Complex.anyAccepts ⟨t₂, engine, s₂⟩ list x₂ =
      Complex.anyAccepts ⟨t₁, engine, s₁⟩ list x₁ :=
    Complex.anyAccepts_eq_of_sameAlong (Complex.all_sameAlong h list hkept) hs hx hwithin
  have hwithin₂ : t₂.Within x₂ s₂ := by
    by_cases hne : x₁ = s₁
    · rw [(h.eq_iff hx hs).1 hne]
      exact .refl
    · exact (h.below hs hx (below_of_within hwithin hne)).within
  rw [Bool.eq_iff_iff, h.forest₁.accepts_iff, h.forest₂.accepts_iff, hany,
    and_iff_right hwithin, and_iff_right hwithin₂]

end Tree.Alike

end MarkupQuery
