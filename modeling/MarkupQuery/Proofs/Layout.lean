import MarkupQuery.Description.Basic
import MarkupQuery.Proofs.Links
import MarkupQuery.Tree.Walk

/-!
# Described nodes in a tree

Descriptions are numbered in document order: a node gets the next id, and what is below
it gets the ids that follow.  A tree in which described nodes are laid out like this
gives the descriptions back, apart from the blanks around tag names.

* `Description.kind`, `Description.children` — a description node by node;
* `Description.tops` — the ids of the nodes of a list;
* `Description.LaidAll` — a tree holds what is described from an id on;
* `LaidAll.preorder_tops` — the walk down counts;
* `LaidAll.describe_tops` — reading the nodes back gives the descriptions.
-/

namespace MarkupQuery

namespace Description

/-! ### Node by node -/

/-- What the described node is, once it stands in a tree. -/
def kind : Description → NodeKind
  | .text content => .text content
  | .comment content => .comment content
  | .element tag attributes _ => .element ⟨Text.trimmed tag, attributes⟩

/-- What is described below the node. -/
def children : Description → List Description
  | .element _ _ children => children
  | _ => []

/-- The tag name of the node as it is written. -/
def tag? : Description → Option String
  | .element tag _ _ => some tag
  | _ => none

mutual

theorem induction_one {motive : List Description → Prop} (nil : motive [])
    (cons : ∀ d rest, motive d.children → motive rest → motive (d :: rest)) :
    ∀ d : Description, motive d.children
  | .text _ => nil
  | .comment _ => nil
  | .element _ _ children => induction_all nil cons children

/-- Induction on the nodes of a list: on the first one after what is below it and what
comes after it. -/
theorem induction_all {motive : List Description → Prop} (nil : motive [])
    (cons : ∀ d rest, motive d.children → motive rest → motive (d :: rest)) :
    ∀ ds : List Description, motive ds
  | [] => nil
  | d :: rest => cons d rest (induction_one nil cons d) (induction_all nil cons rest)

end

mutual

/-- The number of nodes that are described. -/
def size : Description → Nat
  | .element _ _ children => sizeAll children + 1
  | _ => 1

/-- The number of nodes that a list describes. -/
def sizeAll : List Description → Nat
  | [] => 0
  | d :: rest => d.size + sizeAll rest

end

mutual

/-- The tag names in a description as they are written, in document order. -/
def tags : Description → List String
  | .element tag _ children => tag :: tagsAll children
  | _ => []

/-- The tag names in a list. -/
def tagsAll : List Description → List String
  | [] => []
  | d :: rest => d.tags ++ tagsAll rest

end

mutual

/-- The description without the blanks around its tag names. -/
def trimmed : Description → Description
  | .element tag attributes children =>
    .element (Text.trimmed tag) attributes (trimmedAll children)
  | d => d

/-- The descriptions of a list without the blanks around their tag names. -/
def trimmedAll : List Description → List Description
  | [] => []
  | d :: rest => d.trimmed :: trimmedAll rest

end

theorem size_eq (d : Description) : d.size = sizeAll d.children + 1 := by
  cases d <;> simp [size, children, sizeAll]

theorem mem_tags {d : Description} {tag : String} :
    tag ∈ d.tags ↔ d.tag? = some tag ∨ tag ∈ tagsAll d.children := by
  cases d <;> simp [tags, tag?, children, tagsAll, eq_comm]

/-! ### Numbered nodes -/

/-- The ids of the nodes of a list, without those below them, if everything described is
numbered in document order from `id` on. -/
def tops (id : NodeId) : List Description → List NodeId
  | [] => []
  | d :: rest => id :: tops (id + d.size) rest

mutual

/-- A tree holds a described node at an id, and what is below it from the next id on. -/
def Laid (t : Tree) : NodeId → Description → Prop
  | id, .text content => t.kind? id = some (.text content) ∧ t.children id = []
  | id, .comment content => t.kind? id = some (.comment content) ∧ t.children id = []
  | id, .element tag attributes children =>
    t.kind? id = some (.element ⟨Text.trimmed tag, attributes⟩) ∧
      t.children id = tops (id + 1) children ∧ LaidAll t (id + 1) children

/-- A tree holds the described nodes of a list from an id on. -/
def LaidAll (t : Tree) : NodeId → List Description → Prop
  | _, [] => True
  | id, d :: rest => d.Laid t id ∧ LaidAll t (id + d.size) rest

end

variable {t t' : Tree} {id : Nat} {ds ds' : List Description}

theorem laid_iff {d : Description} : d.Laid t id ↔ t.kind? id = some d.kind ∧
    t.children id = tops (id + 1) d.children ∧ LaidAll t (id + 1) d.children := by
  cases d <;> simp [Laid, kind, children, tops, LaidAll]

theorem sizeAll_append : sizeAll (ds ++ ds') = sizeAll ds + sizeAll ds' := by
  induction ds with
  | nil => simp [sizeAll]
  | cons d rest ih => simp [sizeAll, ih, Nat.add_assoc]

theorem tops_append : tops id (ds ++ ds') = tops id ds ++ tops (id + sizeAll ds) ds' := by
  induction ds generalizing id with
  | nil => simp [tops, sizeAll]
  | cons d rest ih => simp [tops, sizeAll, ih, Nat.add_assoc]

theorem laidAll_append :
    LaidAll t id (ds ++ ds') ↔ LaidAll t id ds ∧ LaidAll t (id + sizeAll ds) ds' := by
  induction ds generalizing id with
  | nil => simp [LaidAll, sizeAll]
  | cons d rest ih => simp [LaidAll, sizeAll, ih, Nat.add_assoc, and_assoc]

/-- Only the nodes that are described matter. -/
theorem LaidAll.congr (h : LaidAll t id ds)
    (hsame : ∀ x : Nat, id ≤ x → x < id + sizeAll ds →
      t'.kind? x = t.kind? x ∧ t'.children x = t.children x) : LaidAll t' id ds := by
  induction ds using induction_all generalizing id with
  | nil => trivial
  | cons d rest ihchildren ihrest =>
      have hsize : sizeAll (d :: rest) = d.size + sizeAll rest := rfl
      have hd : d.size = sizeAll d.children + 1 := d.size_eq
      obtain ⟨hfirst, hrest⟩ := h
      obtain ⟨hkind, hchildren, hbelow⟩ := laid_iff.1 hfirst
      obtain ⟨hkind', hchildren'⟩ := hsame id (Nat.le_refl id) (by omega)
      have hbelow' : LaidAll t' (id + 1) d.children :=
        ihchildren hbelow fun x hle hlt => hsame x (by omega) (by omega)
      refine ⟨laid_iff.2 ⟨hkind'.trans hkind, hchildren'.trans hchildren, hbelow'⟩, ?_⟩
      exact ihrest hrest fun x hle hlt => hsame x (by omega) (by omega)

/-! ### Walking and reading -/

/-- **The walk down counts.**  From described nodes it meets the ids in order. -/
theorem LaidAll.preorder_tops (h : LaidAll t id ds) {depth : Nat} (hdepth : sizeAll ds ≤ depth) :
    t.preorder depth (tops id ds) = List.range' id (sizeAll ds) := by
  induction ds using induction_all generalizing id depth with
  | nil => cases depth <;> rfl
  | cons d rest ihchildren ihrest =>
      have hsize : sizeAll (d :: rest) = d.size + sizeAll rest := rfl
      have hd : d.size = sizeAll d.children + 1 := d.size_eq
      obtain ⟨hfirst, hrest⟩ := h
      obtain ⟨-, hchildren, hbelow⟩ := laid_iff.1 hfirst
      cases depth with
      | zero => omega
      | succ depth =>
          have hpreorder : t.preorder depth (t.children id) =
              List.range' (id + 1) (sizeAll d.children) := by
            rw [hchildren]
            exact ihchildren hbelow (by omega)
          calc t.preorder (depth + 1) (tops id (d :: rest))
              = (id :: t.preorder depth (t.children id)) ++
                  t.preorder (depth + 1) (tops (id + d.size) rest) := by
                rw [tops, Tree.preorder, List.flatMap_cons]
                rfl
            _ = List.range' id d.size ++ List.range' (id + d.size) (sizeAll rest) := by
                rw [hpreorder, ihrest hrest (by omega), hd, List.range'_succ]
            _ = List.range' id (sizeAll (d :: rest)) := by
                rw [List.range'_append_1, hsize]

end Description

namespace Tree

/-- The descriptions of nodes, with what is below them down to a depth.  A document is not
described. -/
def describe (t : Tree) : Nat → List NodeId → List Description
  | 0, _ => []
  | depth + 1, ids => ids.filterMap fun id =>
    match t.kind? id with
    | some (.text content) => some (.text content)
    | some (.comment content) => some (.comment content)
    | some (.element e) =>
      some (.element e.tagName e.attributes (describe t depth (t.children id)))
    | _ => none

/-- The description of what the document holds. -/
def description (t : Tree) : List Description := t.describe t.size (t.children root)

end Tree

namespace Description

variable {t : Tree} {id : Nat} {ds : List Description}

/-- **Reading back** described nodes gives the descriptions, with their tag names trimmed. -/
theorem LaidAll.describe_tops (h : LaidAll t id ds) {depth : Nat} (hdepth : sizeAll ds ≤ depth) :
    t.describe depth (tops id ds) = trimmedAll ds := by
  induction ds using induction_all generalizing id depth with
  | nil => cases depth <;> rfl
  | cons d rest ihchildren ihrest =>
      have hsize : sizeAll (d :: rest) = d.size + sizeAll rest := rfl
      have hd : d.size = sizeAll d.children + 1 := d.size_eq
      obtain ⟨hfirst, hrest⟩ := h
      obtain ⟨hkind, hchildren, hbelow⟩ := laid_iff.1 hfirst
      cases depth with
      | zero => omega
      | succ depth =>
          have hdescribe : t.describe depth (t.children id) = trimmedAll d.children := by
            rw [hchildren]
            exact ihchildren hbelow (by omega)
          have hnext := ihrest hrest (show sizeAll rest ≤ depth + 1 by omega)
          rw [Tree.describe] at hnext ⊢
          cases d with
          | text content => simp [tops, trimmedAll, trimmed, hkind, kind, hnext]
          | comment content => simp [tops, trimmedAll, trimmed, hkind, kind, hnext]
          | element tag attributes children =>
              have hread : t.describe depth (t.children id) = trimmedAll children := hdescribe
              simp [tops, trimmedAll, trimmed, hkind, kind, hnext, hread]

end Description

end MarkupQuery
