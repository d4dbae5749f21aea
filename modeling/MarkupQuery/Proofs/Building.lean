import MarkupQuery.Proofs.DocumentOrder
import MarkupQuery.Proofs.Growth
import MarkupQuery.Proofs.Layout

/-!
# Building reproduces the description

An element is allocated before what is below it and linked after that, so for a while the
tree holds free subtrees.  In the end every node has the place that the numbering of the
description says, unless a blank tag name has stopped the construction.

* `Tag.ofName_eq_error_iff` — which names have no tag;
* `Tree.Planted` — a tree has grown by described nodes;
* `Builder.appendAll_planted`, `Builder.appendAll_blank` — what appending comes to;
* `Tree.build_reproduces` — a tree from scratch.
-/

namespace MarkupQuery

/-! ### Tags -/

/-- No registered name is blank. -/
theorem Tag.trimmed_ne_of_isRegistered {name : String} (h : Tag.isRegistered name = true) :
    Text.trimmed name ≠ "" := by
  have hall : ∀ n ∈ inlineNames ++ blockNames, Text.trimmed n ≠ "" := by decide +kernel
  refine hall name ?_
  simpa [Tag.isRegistered] using h

/-- **Which names have no tag:** the blank ones. -/
theorem Tag.ofName_eq_error_iff {name : String} {e : TagError} :
    Tag.ofName name = .error e ↔ Text.trimmed name = "" := by
  cases e
  unfold Tag.ofName registered? normalized?
  by_cases hregistered : Tag.isRegistered name = true
  · simp [hregistered, Tag.trimmed_ne_of_isRegistered hregistered]
  · by_cases hblank : Text.trimmed name = "" <;> simp [hregistered, hblank]

namespace Tree

open Description

variable {t t' t'' : Tree} {parent : NodeId} {ds ds' : List Description}

/-! ### Growing by what is described -/

/-- A tree has grown by described nodes.  They are laid out after the nodes that were
there before, and of those only `parent` has changed, which has the new children. -/
structure Planted (t t' : Tree) (parent : NodeId) (ds : List Description) : Prop where
  size : t'.size = t.size + sizeAll ds
  kind? : ∀ x < t.size, t'.kind? x = t.kind? x
  children : ∀ x < t.size, t'.children x =
    if x = parent then t.children parent ++ tops t.size ds else t.children x
  laid : LaidAll t' t.size ds

namespace Planted

theorem nil (t : Tree) (parent : NodeId) : t.Planted t parent [] where
  size := rfl
  kind? _ _ := rfl
  children x _ := by
    by_cases hx : x = parent <;> simp [hx, tops]
  laid := trivial

/-- What was planted first stays as it is when more is planted beside it. -/
theorem append (h : t.Planted t' parent ds) (h' : t'.Planted t'' parent ds')
    (hparent : parent < t.size) : t.Planted t'' parent (ds ++ ds') where
  size := by rw [h'.size, h.size, sizeAll_append, Nat.add_assoc]
  kind? x hx := by
    have hx' : x < t'.size := h.size ▸ Nat.lt_add_right _ hx
    rw [h'.kind? x hx', h.kind? x hx]
  children x hx := by
    have hx' : x < t'.size := h.size ▸ Nat.lt_add_right _ hx
    rw [h'.children x hx', h.children x hx, h.children parent hparent, if_pos rfl, h.size,
      tops_append, List.append_assoc]
    split <;> rfl
  laid := by
    refine laidAll_append.2 ⟨h.laid.congr fun x hle hlt => ?_, h.size ▸ h'.laid⟩
    have hx : x < t'.size := h.size ▸ hlt
    have hne : x ≠ parent := Nat.ne_of_gt (Nat.lt_of_lt_of_le hparent hle)
    exact ⟨h'.kind? x hx, (h'.children x hx).trans (if_neg hne)⟩

/-- **One node.**  What is below it is planted while it is free, and then it is linked. -/
theorem link {d : Description} (h : (t.alloc d.kind).1.Planted t' t.size d.children)
    (happended : t'.Appended t'' parent t.size) (hkind : ∀ x, t''.kind? x = t'.kind? x)
    (hparent : parent < t.size) (hfresh : t.children t.size = []) :
    t.Planted t'' parent [d] := by
  have hsize : t'.size = t.size + 1 + sizeAll d.children := by rw [h.size, size_alloc]
  have hnew : t'.kind? t.size = some d.kind := by
    rw [h.kind? t.size (by simp), kind?_alloc, if_pos rfl]
  have hbelow : t'.children t.size = tops (t.size + 1) d.children := by
    rw [h.children t.size (by simp), if_pos rfl, children_alloc, hfresh, size_alloc,
      List.nil_append]
  have hold : ∀ x < t.size, t'.kind? x = t.kind? x ∧ t'.children x = t.children x := by
    intro x hx
    have hne : x ≠ t.size := Nat.ne_of_lt hx
    have hx' : x < (t.alloc d.kind).1.size := by
      rw [size_alloc]
      exact Nat.lt_succ_of_lt hx
    rw [h.kind? x hx', h.children x hx', kind?_alloc, if_neg hne, if_neg hne, children_alloc]
    exact ⟨rfl, rfl⟩
  have hne : ∀ x : Nat, t.size ≤ x → x ≠ parent := fun x hle =>
    Nat.ne_of_gt (Nat.lt_of_lt_of_le hparent hle)
  refine ⟨?_, fun x hx => ?_, fun x hx => ?_, ?_⟩
  · rw [happended.size, hsize, sizeAll, sizeAll, d.size_eq]
    omega
  · rw [hkind, (hold x hx).1]
  · rw [happended.children, (hold x hx).2, (hold parent hparent).2, tops, tops]
  · refine ⟨laid_iff.2 ⟨?_, ?_, ?_⟩, trivial⟩
    · rw [hkind, hnew]
    · rw [happended.children, if_neg (hne t.size (Nat.le_refl _)), hbelow]
    · have hlaid : LaidAll t' (t.size + 1) d.children := by
        simpa using h.laid
      refine hlaid.congr fun x hle _ => ⟨hkind x, ?_⟩
      rw [happended.children, if_neg (hne x (Nat.le_of_succ_le hle))]

end Planted

end Tree

/-! ### The builder -/

namespace Builder

open MarkupQuery.Tree Description

variable {parent : NodeId} {ds : List Description}

/-- A description with a blank tag name at its top fails at once. -/
theorem append_of_blank (b : Builder) {d : Description} {tag : String}
    (htag : d.tag? = some tag) (hblank : Text.trimmed tag = "") :
    b.append parent d = (b, .error (.tag .emptyName)) := by
  cases d with
  | element tag' attributes children =>
      obtain rfl : tag' = tag := Option.some.inj htag
      rw [append, Tag.ofName_eq_error_iff.2 hblank]
  | text content => cases htag
  | comment content => cases htag

/-- The record once the tag of a description has been looked up. -/
def noted (b : Builder) (d : Description) : WarningLog :=
  match d.tag?.map Tag.ofName with
  | some (.ok known) => (b.noteTag known).log
  | _ => b.log

/-- Any other description is noted, allocated and filled, and linked if that succeeds. -/
theorem append_of_not_blank (b : Builder) (parent : NodeId) {d : Description}
    (hd : ∀ tag, d.tag? = some tag → Text.trimmed tag ≠ "") (b' : Builder) :
    (appendAll ⟨(b.tree.alloc d.kind).1, b.noted d⟩ b.tree.size d.children = (b', .ok ()) →
      b.append parent d = b'.link parent b.tree.size) ∧
    ∀ e, appendAll ⟨(b.tree.alloc d.kind).1, b.noted d⟩ b.tree.size d.children = (b', .error e) →
      b.append parent d = (b', .error e) := by
  -- a text or a comment is filled with nothing
  have hleaf : ∀ (b₁ : Builder) (outcome : Except TreeError Unit),
      appendAll b₁ b.tree.size [] = (b', outcome) → b₁ = b' ∧ .ok () = outcome := by
    intro b₁ outcome hfill
    rw [appendAll] at hfill
    exact Prod.mk.inj hfill
  cases d with
  | text content | comment content =>
      refine ⟨fun hfill => ?_, fun e hfill => ?_⟩
      · obtain ⟨rfl, -⟩ := hleaf _ _ hfill
        rw [append]
        rfl
      · obtain ⟨-, hfail⟩ := hleaf _ _ hfill
        cases hfail
  | element tag attributes children =>
      cases htag : Tag.ofName tag with
      | error e => exact absurd (Tag.ofName_eq_error_iff.1 htag) (hd tag rfl)
      | ok known =>
          have hmade : (b.noteTag known).alloc (Description.element tag attributes children).kind =
              (⟨(b.tree.alloc (Description.element tag attributes children).kind).1,
                b.noted (.element tag attributes children)⟩, b.tree.size) := by
            simp [alloc, noted, tag?, htag]
          simp only [kind] at hmade
          refine ⟨fun hfill => ?_, fun e hfill => ?_⟩
          all_goals
            simp only [kind, Description.children] at hfill
            simp only [append, htag, hmade, hfill]

/-- Descriptions succeed below an old node and plant their nodes there. -/
def Plants (ds : List Description) : Prop :=
  ∀ (b : Builder) (parent : NodeId), b.tree.Forest → parent < b.tree.size →
    ∃ b', b.appendAll parent ds = (b', .ok ()) ∧ b.tree.Planted b'.tree parent ds

/-- **One description** plants its node if what is below it is planted. -/
theorem append_planted (b : Builder) (h : b.tree.Forest) (hparent : parent < b.tree.size)
    {d : Description} (hd : ∀ tag, d.tag? = some tag → Text.trimmed tag ≠ "")
    (hchildren : Plants d.children) :
    ∃ b', b.append parent d = (b', .ok b.tree.size) ∧ b'.tree.Forest ∧
      parent < b'.tree.size ∧ b.tree.Planted b'.tree parent [d] := by
  have hstep := append_of_not_blank b parent hd
  -- the builder that fills the new node
  have hforest : (b.tree.alloc d.kind).1.Forest := h.alloc d.kind
  have hlt : b.tree.size < (b.tree.alloc d.kind).1.size := by simp
  obtain ⟨b₁, hfill, hfilled⟩ :=
    hchildren ⟨(b.tree.alloc d.kind).1, b.noted d⟩ b.tree.size hforest hlt
  obtain ⟨hforest₁, hext, -⟩ :=
    appendAll_forest ⟨(b.tree.alloc d.kind).1, b.noted d⟩ hforest hlt d.children
  rw [hfill] at hforest₁ hext
  have hfree : b₁.tree.parent? b.tree.size = none := by
    rw [hext.parent?_eq _ hlt]
    exact (Sprouted.alloc h d.kind).free
  have hsize : b.tree.size < b₁.tree.size := Nat.lt_of_lt_of_le hlt hext.size_le
  obtain ⟨hdone, happended⟩ :=
    hforest₁.appendChild_appended (Nat.lt_trans hparent hsize) hsize hfree
  have hfresh : b.tree.children b.tree.size = [] := by
    simp [Tree.children, get?_eq_none_iff.2]
  have hplanted := hfilled.link happended (by simp) hparent hfresh
  have hlinked := (append_forest_iff b h parent d).2 fun _ _ => hparent
  rw [(hstep b₁).1 hfill, link_of_ok b₁ hdone] at hlinked ⊢
  exact ⟨_, rfl, hlinked, hplanted.size ▸ Nat.lt_add_right _ hparent, hplanted⟩

/-- **Descriptions one after the other** plant all their nodes, if no tag name is blank. -/
theorem appendAll_planted (hds : ∀ tag ∈ tagsAll ds, Text.trimmed tag ≠ "") : Plants ds := by
  induction ds using induction_all with
  | nil =>
      intro b parent _ _
      exact ⟨b, by rw [appendAll], .nil b.tree parent⟩
  | cons d rest ihchildren ihrest =>
      rw [tagsAll, List.forall_mem_append] at hds
      obtain ⟨hfirst, hrest⟩ := hds
      have hd : ∀ tag, d.tag? = some tag → Text.trimmed tag ≠ "" :=
        fun tag htag => hfirst tag (mem_tags.2 (.inl htag))
      have hbelow := ihchildren fun tag htag => hfirst tag (mem_tags.2 (.inr htag))
      intro b parent h hparent
      obtain ⟨b₁, hstep, hforest, hlt, hplanted⟩ := append_planted b h hparent hd hbelow
      obtain ⟨b₂, hall, hplanted'⟩ := ihrest hrest b₁ parent hforest hlt
      rw [appendAll, hstep]
      exact ⟨b₂, hall, hplanted.append hplanted' hparent⟩

/-- **A blank tag name** stops the construction, wherever it stands. -/
theorem appendAll_blank (b : Builder) (parent : NodeId) (h : b.tree.Forest)
    (hparent : parent < b.tree.size) (hblank : ∃ tag ∈ tagsAll ds, Text.trimmed tag = "") :
    (b.appendAll parent ds).2 = .error (.tag .emptyName) := by
  induction ds using induction_all generalizing b parent with
  | nil => simp [tagsAll] at hblank
  | cons d rest ihchildren ihrest =>
      by_cases hd : ∀ tag, d.tag? = some tag → Text.trimmed tag ≠ ""
      · by_cases hbelow : ∀ tag ∈ tagsAll d.children, Text.trimmed tag ≠ ""
        · -- the first node succeeds, so the blank is behind it
          obtain ⟨tag, htag, hempty⟩ := hblank
          have hrest : tag ∈ tagsAll rest := by
            rw [tagsAll, List.mem_append, mem_tags] at htag
            rcases htag with (htop | hchild) | hrest
            · exact absurd hempty (hd tag htop)
            · exact absurd hempty (hbelow tag hchild)
            · exact hrest
          obtain ⟨b₁, hstep, hforest, hlt, -⟩ :=
            append_planted b h hparent hd (appendAll_planted hbelow)
          rw [appendAll, hstep]
          exact ihrest b₁ parent hforest hlt ⟨tag, hrest, hempty⟩
        · have hstep := append_of_not_blank b parent hd
          have hforest : (b.tree.alloc d.kind).1.Forest := h.alloc d.kind
          have hfail := ihchildren ⟨(b.tree.alloc d.kind).1, b.noted d⟩ b.tree.size hforest
            (by simp) (by simpa using hbelow)
          rw [appendAll, (hstep _).2 _ (Prod.ext rfl hfail)]
      · simp only [ne_eq, not_forall, not_not] at hd
        obtain ⟨tag, htag, hempty⟩ := hd
        rw [appendAll, append_of_blank b htag hempty]

end Builder

namespace Tree

open Description

variable {t : Tree} {log : WarningLog} {nodes : List Description}

/-- Without blank tag names there is a tree, grown from the document alone. -/
theorem exists_build (log : WarningLog) (nodes : List Description)
    (hnamed : ∀ tag ∈ tagsAll nodes, Text.trimmed tag ≠ "") :
    ∃ t, (Tree.build log nodes).2 = .ok t ∧ Tree.empty.Planted t root nodes := by
  obtain ⟨b, hb, hplanted⟩ := Builder.appendAll_planted hnamed ⟨.empty, log⟩ root .empty
    Forest.empty.inhabited
  exact ⟨b.tree, by rw [Tree.build, hb], hplanted⟩

/-- With one there is none. -/
theorem build_blank (log : WarningLog) (hblank : ∃ tag ∈ tagsAll nodes, Text.trimmed tag = "") :
    (Tree.build log nodes).2 = .error (.tag .emptyName) := by
  have hfail := Builder.appendAll_blank ⟨.empty, log⟩ root .empty Forest.empty.inhabited hblank
  rw [Tree.build]
  split
  · next b hb =>
    rw [hb] at hfail
    cases hfail
  · next b e hb =>
    rw [hb] at hfail
    cases hfail
    rfl

/-- **A tree that was built** holds the document and after it all that is described. -/
theorem laid_of_build (h : (Tree.build log nodes).2 = .ok t) :
    t.size = sizeAll nodes + 1 ∧ t.kind? root = some .document ∧
      t.children root = tops 1 nodes ∧ LaidAll t 1 nodes := by
  have hnamed : ∀ tag ∈ tagsAll nodes, Text.trimmed tag ≠ "" := by
    by_contra hblank
    rw [build_blank log (by simpa using hblank)] at h
    cases h
  obtain ⟨t', ht', hplanted⟩ := exists_build log nodes hnamed
  obtain rfl : t = t' := Except.ok.inj (h.symm.trans ht')
  refine ⟨hplanted.size.trans (Nat.add_comm _ _), ?_, ?_, hplanted.laid⟩
  · rw [hplanted.kind? root Forest.empty.inhabited]
    rfl
  · rw [hplanted.children root Forest.empty.inhabited, if_pos rfl]
    rfl

/-- **The ids of a tree that was built.**  Below the document are all other nodes, in the
order of their ids. -/
theorem descendants_root_of_build (h : (Tree.build log nodes).2 = .ok t) :
    t.descendants root = List.range' 1 (t.size - 1) := by
  obtain ⟨hsize, -, hchildren, hlaid⟩ := laid_of_build h
  rw [descendants, hchildren, hlaid.preorder_tops (by omega), hsize, Nat.add_sub_cancel]

/-- The elements of a tree that was built come after the document. -/
theorem pos_of_isElement_of_build (h : (Tree.build log nodes).2 = .ok t) {x : Nat}
    (hx : t.isElement x = true) : 0 < x ∧ x < t.size := by
  constructor
  · refine Nat.pos_of_ne_zero fun heq => ?_
    have hroot : t.kind? 0 = some .document := (laid_of_build h).2.1
    rw [heq, isElement, element?, hroot] at hx
    cases hx
  · refine Nat.lt_of_not_le fun hle => ?_
    rw [isElement, element?, kind?, get?_eq_none_iff.2 hle] at hx
    cases hx

/-- **Document order is the order of the ids** in a tree that was built. -/
theorem precedes_iff_lt_of_build (h : (Tree.build log nodes).2 = .ok t) {x y : Nat}
    (hx : 0 < x ∧ x < t.size) (hy : 0 < y ∧ y < t.size) : t.Precedes x y ↔ x < y := by
  have hforest : t.Forest := (Reachable.build log nodes h).forest
  have hordered := hforest.pairwise_descendants root
  rw [descendants_root_of_build h, List.pairwise_iff_getElem] at hordered
  have hprecedes : ∀ a b : Nat, 0 < a → a < b → b < t.size → t.Precedes a b := by
    intro a b ha hab hb
    have hat := hordered (a - 1) (b - 1) (by simp; omega) (by simp; omega) (by omega)
    simp only [List.getElem_range', Nat.one_mul, Nat.add_sub_cancel' ha,
      Nat.add_sub_cancel' (Nat.lt_trans ha hab)] at hat
    exact hat
  constructor
  · intro hxy
    rcases Nat.lt_trichotomy x y with hlt | heq | hgt
    · exact hlt
    · subst heq
      exact absurd hxy (hforest.not_precedes_of_precedes hxy)
    · exact absurd (hprecedes y x hy.1 hgt hx.2) (hforest.not_precedes_of_precedes hxy)
  · intro hlt
    exact hprecedes x y hx.1 hlt hy.2

/-- **Building reproduces the description.**  It fails for want of a tag name just when
some tag name is blank.  Otherwise there is a tree, from which the description is read
back with its tag names trimmed; it has one node for each that is described, and the
document; and the ids follow document order. -/
theorem build_reproduces (log : WarningLog) (nodes : List Description) :
    ((Tree.build log nodes).2 = .error (.tag .emptyName) ↔
      ∃ tag ∈ tagsAll nodes, Text.trimmed tag = "") ∧
    ((¬ ∃ tag ∈ tagsAll nodes, Text.trimmed tag = "") →
      ∃ t, (Tree.build log nodes).2 = .ok t ∧ t.description = trimmedAll nodes ∧
        t.size = sizeAll nodes + 1 ∧ t.descendants root = List.range' 1 (t.size - 1)) := by
  constructor
  · refine ⟨fun hfail => ?_, build_blank log⟩
    by_contra hnamed
    obtain ⟨t, ht, -⟩ := exists_build log nodes (by simpa using hnamed)
    rw [ht] at hfail
    cases hfail
  · intro hnamed
    obtain ⟨t, ht, -⟩ := exists_build log nodes (by simpa using hnamed)
    obtain ⟨hsize, -, hchildren, hlaid⟩ := laid_of_build ht
    have hread : t.description = trimmedAll nodes := by
      rw [description, hchildren]
      exact hlaid.describe_tops (by omega)
    exact ⟨t, ht, hread, hsize, descendants_root_of_build ht⟩

/-- Two lists with a comment between them are built as they are described, but for the
blanks around a tag name; and without its name an item stops the whole. -/
theorem build_reproduces_two_lists :
    let list (tag : String) : Description := .element " ul" .empty
      [.element tag .empty [.text " a "], .text "b"]
    let read : Description := .element "ul" .empty [.element "li" .empty [.text " a "], .text "b"]
    (∃ t, (Tree.build .empty [list "li", .comment "c", list "li "]).2 = .ok t ∧
      t.description = [read, .comment "c", read] ∧
      t.descendants root = [1, 2, 3, 4, 5, 6, 7, 8, 9]) ∧
    (Tree.build .empty [list "li", .comment "c", list " "]).2 = .error (.tag .emptyName) := by
  intro list read
  constructor
  · obtain ⟨t, ht, hread, hsize, hids⟩ :=
      (build_reproduces .empty [list "li", .comment "c", list "li "]).2 (by decide +kernel)
    rw [hsize] at hids
    exact ⟨t, ht, hread, hids⟩
  · exact (build_reproduces .empty [list "li", .comment "c", list " "]).1.2 (by decide +kernel)

end Tree

end MarkupQuery
