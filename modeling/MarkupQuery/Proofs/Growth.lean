import MarkupQuery.Description.Basic
import MarkupQuery.Proofs.Forest

/-!
# Growing forests

Trees come about by allocating nodes, appending them, and adding what is described.
A description builds its nodes while they are still free, and leaves pieces behind
when it fails.  Every tree of such a history is a forest, as long as nothing is put
below itself.

* `Tree.Extends` — old nodes keep their parents;
* `Tree.Sprouted` — new nodes form one free subtree;
* `Sprouted.forest_appendChild_iff` — where that subtree may go;
* `Builder.append_forest_iff` — a description keeps a forest, whether it fails or not;
* `Tree.Reachable`, `Reachable.forest` — the histories.
-/

namespace MarkupQuery.Tree

variable {t t' t₀ : Tree} {parent : NodeId}

/-! ### Old and new nodes -/

/-- A tree has grown: the nodes that were there before have the parents that they had. -/
structure Extends (t t' : Tree) : Prop where
  size_le : t.size ≤ t'.size
  parent?_eq : ∀ x < t.size, t'.parent? x = t.parent? x

namespace Extends

theorem refl (t : Tree) : t.Extends t := ⟨Nat.le_refl _, fun _ _ => rfl⟩

theorem trans {t'' : Tree} (h : t.Extends t') (h' : t'.Extends t'') : t.Extends t'' := by
  refine ⟨Nat.le_trans h.size_le h'.size_le, fun x hx => ?_⟩
  rw [h'.parent?_eq x (Nat.lt_of_lt_of_le hx h.size_le), h.parent?_eq x hx]

/-- Ways up stay. -/
theorem within (h : t.Extends t') {x y : NodeId} (hxy : t.Within x y) : t'.Within x y := by
  refine Relation.ReflTransGen.mono (fun c p hcp => ?_) _ _ hxy
  rw [Under, h.parent?_eq c (lt_size_of_parent? hcp)]
  exact hcp

/-- Going up from an old node meets old nodes only. -/
theorem lt_of_within (h : t.Extends t') (hf : t.Forest) {x y : NodeId} (hx : x < t.size)
    (hxy : t'.Within x y) : y < t.size := by
  induction hxy with
  | refl => exact hx
  | tail _ hlink ih =>
    rw [Under, h.parent?_eq _ ih] at hlink
    exact hf.parent?_lt hlink

end Extends

/-- All new nodes of a tree make up one subtree, whose top is the first of them and is
still free. -/
structure Sprouted (t₀ t : Tree) : Prop where
  forest : t.Forest
  old : t₀.Extends t
  size_lt : t₀.size < t.size
  free : t.parent? t₀.size = none
  within : ∀ x, t₀.size ≤ x → x < t.size → t.Within x t₀.size

namespace Sprouted

theorem alloc (h : t.Forest) (kind : NodeKind) : t.Sprouted (t.alloc kind).1 := by
  have hfree : t.parent? t.size = none := by
    cases hp : t.parent? t.size with
    | none => rfl
    | some p => exact absurd (lt_size_of_parent? hp) (Nat.lt_irrefl _)
  refine ⟨h.alloc kind, ⟨by simp, fun _ _ => by simp⟩, by simp, by simpa using hfree, ?_⟩
  intro x hle hlt
  obtain rfl : x = t.size := by
    rw [size_alloc] at hlt
    exact Nat.le_antisymm (Nat.le_of_lt_succ hlt) hle
  exact .refl

/-- The subtree is appended to an old node. -/
theorem appendChild_old (h : t₀.Sprouted t) (h₀ : t₀.Forest) (hparent : parent < t₀.size) :
    (t.appendChild parent t₀.size).2 = .ok () ∧ (t.appendChild parent t₀.size).1.Forest ∧
      t₀.Extends (t.appendChild parent t₀.size).1 ∧
      ∀ x, t₀.size ≤ x → x < (t.appendChild parent t₀.size).1.size →
        (t.appendChild parent t₀.size).1.Within x parent := by
  have hlt : parent < t.size := Nat.lt_trans hparent h.size_lt
  obtain ⟨hdone, ha⟩ := h.forest.appendChild_appended hlt h.size_lt h.free
  have hroot : t₀.size ≠ root := Nat.ne_of_gt h₀.inhabited
  have hout : ¬ t.Within parent t₀.size := fun hw =>
    Nat.lt_irrefl _ (h.old.lt_of_within h₀ hparent hw)
  refine ⟨hdone, h.forest.appended ha hroot h.free hout, ⟨?_, fun x hx => ?_⟩, ?_⟩
  · rw [ha.size]
    exact h.old.size_le
  · rw [ha.parent?, if_neg (Nat.ne_of_lt hx)]
    exact h.old.parent?_eq x hx
  · intro x hle hx
    rw [ha.size] at hx
    exact (ha.within h.free (h.within x hle hx)).tail ha.under

/-- **The wrong parents.**  Appending the subtree keeps a forest unless it succeeds
below one of its own nodes, which closes a circle. -/
theorem forest_appendChild_iff (h : t₀.Sprouted t) (h₀ : t₀.Forest) :
    (t.appendChild parent t₀.size).1.Forest ↔
      ((t.appendChild parent t₀.size).2 = .ok () → parent < t₀.size) := by
  by_cases hlt : parent < t.size
  · obtain ⟨hdone, ha⟩ := h.forest.appendChild_appended hlt h.size_lt h.free
    constructor
    · intro hforest _
      by_cases hold : parent < t₀.size
      · exact hold
      · have hway : t.Within parent t₀.size := h.within parent (Nat.not_lt.1 hold) hlt
        exact absurd (.head' ha.under (ha.within h.free hway)) (hforest.not_below_self t₀.size)
    · intro hold
      exact (h.appendChild_old h₀ (hold hdone)).2.1
  · rw [appendChild_dangling hlt]
    simp [h.forest]

end Sprouted

theorem Forest.appendNew_iff (h : t.Forest) (kind : NodeKind) :
    (t.appendNew parent kind).1.Forest ↔
      ∀ id, (t.appendNew parent kind).2 = .ok id → parent < t.size := by
  have houtcome : (t.appendNew parent kind).2 =
      ((t.alloc kind).1.appendChild parent t.size).2.map fun _ => t.size := rfl
  rw [houtcome]
  refine ((Sprouted.alloc h kind).forest_appendChild_iff h).trans ?_
  cases ((t.alloc kind).1.appendChild parent t.size).2 <;> simp [Except.map]

end MarkupQuery.Tree

namespace MarkupQuery.Builder

open MarkupQuery.Tree

/-! ### Descriptions -/

@[simp] theorem tree_noteTag (b : Builder) (tag : Tag) : (b.noteTag tag).tree = b.tree := by
  unfold noteTag
  split <;> rfl

theorem tree_link (b : Builder) (parent id : NodeId) :
    (b.link parent id).1.tree = (b.tree.appendChild parent id).1 := by
  unfold link
  split <;> simp [*]

theorem link_of_ok (b : Builder) {parent id : NodeId}
    (h : (b.tree.appendChild parent id).2 = .ok ()) :
    b.link parent id = ({ b with tree := (b.tree.appendChild parent id).1 }, .ok id) := by
  unfold link
  split <;> simp_all

theorem link_eq_ok_iff (b : Builder) {parent id j : NodeId} :
    (b.link parent id).2 = .ok j ↔ (b.tree.appendChild parent id).2 = .ok () ∧ id = j := by
  unfold link
  split <;> simp_all

mutual

/-- **One description.**  It fails before it touches its parent, or makes a free subtree
that is linked at last. -/
theorem append_cases (b : Builder) (h : b.tree.Forest) : ∀ d : Description,
    (∃ b' : Builder, ∃ e, (∀ parent, b.append parent d = (b', .error e)) ∧
      b'.tree.Forest ∧ b.tree.Extends b'.tree) ∨
    ∃ b' : Builder, (∀ parent, b.append parent d = b'.link parent b.tree.size) ∧
      b.tree.Sprouted b'.tree
  | .text content => by
    refine .inr ⟨(b.alloc (.text content)).1, fun parent => ?_, .alloc h _⟩
    rw [append]
    rfl
  | .comment content => by
    refine .inr ⟨(b.alloc (.comment content)).1, fun parent => ?_, .alloc h _⟩
    rw [append]
    rfl
  | .element tag attributes children => by
    cases htag : Tag.ofName tag with
    | error e => exact .inl ⟨b, .tag e, fun parent => by simp only [append, htag], h, .refl _⟩
    | ok known =>
      obtain ⟨b₁, hb₁⟩ : ∃ b₁, (b.noteTag known).alloc (.element ⟨Text.trimmed tag, attributes⟩) =
          (b₁, b.tree.size) := ⟨_, Prod.ext rfl (by simp [Builder.alloc])⟩
      have hmade : b.tree.Sprouted b₁.tree := by
        have htree := congrArg (fun made => made.1.tree) hb₁
        simp only [Builder.alloc, tree_noteTag] at htree
        exact htree ▸ .alloc h _
      -- the children go below the new node while it is free
      obtain ⟨hforest, hext, hbelow⟩ := appendAll_forest b₁ hmade.forest hmade.size_lt children
      rcases hfill : b₁.appendAll b.tree.size children with ⟨b₂, e | u⟩
      · rw [hfill] at hforest hext
        refine .inl ⟨b₂, e, fun parent => ?_, hforest, hmade.old.trans hext⟩
        simp only [append, htag, hb₁, hfill]
      · rw [hfill] at hforest hext hbelow
        refine .inr ⟨b₂, fun parent => ?_, hforest, hmade.old.trans hext, ?_, ?_, ?_⟩
        · simp only [append, htag, hb₁, hfill]
        · exact Nat.lt_of_lt_of_le hmade.size_lt hext.size_le
        · rw [hext.parent?_eq _ hmade.size_lt]
          exact hmade.free
        · intro x hle hlt
          by_cases hx : x < b₁.tree.size
          · exact hext.within (hmade.within x hle hx)
          · exact hbelow rfl x (Nat.not_lt.1 hx) hlt

/-- Descriptions one after the other below an old node.  If they all succeed, everything
new is below that node. -/
theorem appendAll_forest (b : Builder) (h : b.tree.Forest) {parent : NodeId}
    (hparent : parent < b.tree.size) : ∀ ds : List Description,
      (b.appendAll parent ds).1.tree.Forest ∧
        b.tree.Extends (b.appendAll parent ds).1.tree ∧
        ((b.appendAll parent ds).2 = .ok () →
          ∀ x, b.tree.size ≤ x → x < (b.appendAll parent ds).1.tree.size →
            (b.appendAll parent ds).1.tree.Within x parent)
  | [] => by
    rw [appendAll]
    exact ⟨h, .refl _, fun _ x hle hlt => absurd hlt (Nat.not_lt.2 hle)⟩
  | d :: rest => by
    rcases append_cases b h d with ⟨b₁, e, hstep, hforest, hext⟩ | ⟨b₁, hstep, hsprout⟩
    · rw [appendAll, hstep]
      exact ⟨hforest, hext, fun hok => by cases hok⟩
    · obtain ⟨hdone, hforest, hext, hbelow⟩ := hsprout.appendChild_old h hparent
      rw [appendAll, hstep, link_of_ok b₁ hdone]
      generalize (b₁.tree.appendChild parent b.tree.size).1 = linked at hforest hext hbelow ⊢
      have hlt : parent < linked.size := Nat.lt_of_lt_of_le hparent hext.size_le
      obtain ⟨hforest', hext', hbelow'⟩ :=
        appendAll_forest { b₁ with tree := linked } hforest hlt rest
      refine ⟨hforest', hext.trans hext', fun hok x hle hx => ?_⟩
      by_cases hx' : x < linked.size
      · exact hext'.within (hbelow x hle hx')
      · exact hbelow' hok x (Nat.not_lt.1 hx') hx

end

/-- **A description keeps a forest,** whether it fails or not, unless it succeeds below
one of the nodes that it makes. -/
theorem append_forest_iff (b : Builder) (h : b.tree.Forest) (parent : NodeId)
    (d : Description) : (b.append parent d).1.tree.Forest ↔
      ∀ id, (b.append parent d).2 = .ok id → parent < b.tree.size := by
  rcases append_cases b h d with ⟨b', e, hstep, hforest, -⟩ | ⟨b', hstep, hsprout⟩
  · simp [hstep, hforest]
  · rw [hstep, tree_link, hsprout.forest_appendChild_iff h]
    simp [link_eq_ok_iff]

end MarkupQuery.Builder

namespace MarkupQuery.Tree

/-! ### Histories -/

/-- The trees that come about by any number of operations, some of which may stop
half-way.  An operation that makes nodes and succeeds has put them below a node that
was there before, and an append takes a free node to a place outside of what it holds. -/
inductive Reachable : Tree → Prop
  | empty : Reachable .empty
  | alloc {t : Tree} (h : Reachable t) (kind : NodeKind) : Reachable (t.alloc kind).1
  | appendElement {t : Tree} (h : Reachable t) (parent : NodeId) (e : Element)
      (hparent : ∀ id, (t.appendElement parent e).2 = .ok id → parent < t.size) :
      Reachable (t.appendElement parent e).1
  | appendText {t : Tree} (h : Reachable t) (parent : NodeId) (content : String)
      (hparent : ∀ id, (t.appendText parent content).2 = .ok id → parent < t.size) :
      Reachable (t.appendText parent content).1
  | appendDescription {t : Tree} (h : Reachable t) (log : WarningLog) (parent : NodeId)
      (d : Description)
      (hparent : ∀ id, (Builder.append ⟨t, log⟩ parent d).2 = .ok id → parent < t.size) :
      Reachable (Builder.append ⟨t, log⟩ parent d).1.tree
  | build {t : Tree} (log : WarningLog) (nodes : List Description)
      (h : (Tree.build log nodes).2 = .ok t) : Reachable t
  | appendChild {t : Tree} (h : Reachable t) {parent child : NodeId}
      (hparent : parent < t.size) (hchild : child < t.size) (hroot : child ≠ root)
      (hfree : t.parent? child = none) (hout : ¬ t.Within parent child) :
      Reachable (t.appendChild parent child).1

variable {t : Tree}

theorem build_eq_ok {log : WarningLog} {nodes : List Description}
    (h : (Tree.build log nodes).2 = .ok t) :
    (Builder.appendAll ⟨.empty, log⟩ root nodes).1.tree = t := by
  unfold Tree.build at h
  split at h
  · next b hb =>
    cases h
    rw [hb]
  · cases h

/-- Every history leaves a forest. -/
theorem Reachable.forest (h : Reachable t) : t.Forest := by
  induction h with
  | empty => exact .empty
  | alloc _ kind ih => exact ih.alloc kind
  | appendElement _ parent e hparent ih => exact (ih.appendNew_iff (.element e)).2 hparent
  | appendText _ parent content hparent ih => exact (ih.appendNew_iff (.text content)).2 hparent
  | appendDescription _ log parent d hparent ih =>
    exact (Builder.append_forest_iff ⟨_, log⟩ ih parent d).2 hparent
  | build log nodes hbuild =>
    rw [← build_eq_ok hbuild]
    exact (Builder.appendAll_forest ⟨.empty, log⟩ .empty Forest.empty.inhabited nodes).1
  | appendChild _ hparent hchild hroot hfree hout ih =>
    exact ih.appendChild hparent hchild hroot hfree hout

/-- **The links of every reachable tree agree.**  Parents and children name each other,
each child once; exactly neighbours are linked as siblings; going up ends; and every
link leads to a node. -/
theorem Reachable.links_agree (h : Reachable t) : t.Forest ∧ t.LinksInRange :=
  ⟨h.forest, h.forest.linksInRange⟩

/-- A list is made while it is free and then put into the document; a text and a
description fail and leave pieces behind. -/
theorem links_agree_pieces :
    ∃ t, Reachable t ∧ t.children root = [1] ∧ t.children 1 = [2, 6] ∧
      t.children 4 = [5] ∧ [3, 4].all (t.parent? · == none) ∧ t.Forest ∧ t.LinksInRange := by
  have h₁ := Reachable.empty.alloc (.element ⟨"ul", .empty⟩)
  have h₂ := h₁.appendElement 1 ⟨"li", .empty⟩ fun _ _ => by decide
  have h₃ := h₂.appendText 9 "lost" fun _ hok => by cases hok
  have hout : ¬ Within _ root 1 := fun hup => by
    obtain he | ⟨y, hlink, -⟩ := Relation.ReflTransGen.cases_head hup
    · cases he
    · exact absurd hlink (by rw [Under, h₃.forest.parent?_root]; exact fun h => by cases h)
  have h₄ := h₃.appendChild (by decide) (by decide) (by decide) (by decide) hout
  have h₅ := h₄.appendDescription .empty 2
    (.element "b" .empty [.text "c", .element " " .empty []]) fun _ _ => by decide
  have h₆ := h₅.appendText 1 "end" fun _ _ => by decide +kernel
  exact ⟨_, h₆, by decide +kernel, by decide +kernel, by decide +kernel, by decide +kernel,
    Reachable.links_agree h₆⟩

/-- An element that is put below the id that it is about to get becomes its own parent,
and going up from it does not end. -/
theorem appendElement_below_itself :
    (Tree.empty.appendElement 1 ⟨"p", .empty⟩).2 = .ok 1 ∧
      ¬ ∃ r, (Tree.empty.appendElement 1 ⟨"p", .empty⟩).1.Within 1 r ∧
        (Tree.empty.appendElement 1 ⟨"p", .empty⟩).1.parent? r = none := by
  refine ⟨rfl, ?_⟩
  intro hend
  obtain ⟨r, hr, hnone⟩ := hend
  have hself : r = 1 := by
    clear hnone
    induction hr with
    | refl => rfl
    | tail _ hlink ih =>
      subst ih
      exact (Option.some.inj hlink).symm
  subst hself
  cases hnone

end MarkupQuery.Tree
