import MarkupQuery.Proofs.Attributes
import MarkupQuery.Proofs.Layout
import Mathlib.Data.List.Forall2

/-!
# Descriptions without comments and cuts in text

A description says more than a selector can see: it has comments, and the text between two
elements may be cut into several nodes.  Both are given up by merging.  What is left says
which elements a list holds, what text they own, and whether there is anything but blanks.

* `Description.bareAll` — without comments, at any depth;
* `Description.joinedAll` — with one text for each run of texts;
* `Description.mergedAll` — both;
* `Description.Same` — descriptions that are the same, whatever the order of attributes;
* `filter_isElement_mergedAll`, `flatMap_ownPieces_mergedAll`, `all_isNothing_mergedAll` —
  what merging keeps.
-/

namespace MarkupQuery

/-! ### What a kind of node counts for -/

namespace NodeKind

/-- What a child of this kind adds to the text that a node owns. -/
def ownPieces (preserve : Bool) : NodeKind → List Piece
  | .text content => Piece.ofText preserve content
  | .element e => if e.isNamed "br" then [.gap] else []
  | _ => []

/-- Whether a child of this kind leaves a node empty. -/
def isNothing : NodeKind → Bool
  | .text content => Text.isBlankText content
  | .comment _ => true
  | _ => false

variable {k₁ k₂ : NodeKind}

theorem Same.ownPieces_eq (h : k₁.Same k₂) (preserve : Bool) :
    k₂.ownPieces preserve = k₁.ownPieces preserve := by
  cases h with
  | refl => rfl
  | element h => simp only [ownPieces, h.isNamed_eq]

theorem Same.isNothing_eq (h : k₁.Same k₂) : k₂.isNothing = k₁.isNothing := by
  cases h <;> rfl

end NodeKind

namespace Description

/-- Whether the described node is an element. -/
def isElement (d : Description) : Bool := d.tag?.isSome

/-! ### Merging -/

/-- Whether the described node is a comment. -/
def isComment : Description → Bool
  | .comment _ => true
  | _ => false

mutual

/-- The description without the comments below it. -/
def bare : Description → Description
  | .element tag attributes children => .element tag attributes (bareAll children)
  | d => d

/-- The descriptions of a list without comments, at any depth. -/
def bareAll : List Description → List Description
  | [] => []
  | d :: rest => if d.isComment then bareAll rest else d.bare :: bareAll rest

end

/-- A description before others.  If it is a text before a text, the two are one. -/
def join : Description → List Description → List Description
  | .text content, .text more :: rest => .text (content ++ more) :: rest
  | d, rest => d :: rest

mutual

/-- The description with one text for each run of texts below it. -/
def joined : Description → Description
  | .element tag attributes children => .element tag attributes (joinedAll children)
  | d => d

/-- The descriptions of a list with one text for each run of texts, at any depth. -/
def joinedAll : List Description → List Description
  | [] => []
  | d :: rest => join d.joined (joinedAll rest)

end

/-- The descriptions of a list without comments, and then with one text for each run of texts. -/
def mergedAll (ds : List Description) : List Description := joinedAll (bareAll ds)

/-- A description with what is below it merged. -/
def merged (d : Description) : Description := d.bare.joined

@[simp] theorem mergedAll_nil : mergedAll [] = [] := rfl

@[simp] theorem mergedAll_text (content : String) (rest : List Description) :
    mergedAll (.text content :: rest) = join (.text content) (mergedAll rest) := rfl

@[simp] theorem mergedAll_comment (content : String) (rest : List Description) :
    mergedAll (.comment content :: rest) = mergedAll rest := rfl

@[simp] theorem mergedAll_element (tag : String) (attributes : Attributes)
    (children rest : List Description) :
    mergedAll (.element tag attributes children :: rest) =
      .element tag attributes (mergedAll children) :: mergedAll rest := rfl

@[simp] theorem kind_merged (d : Description) : d.merged.kind = d.kind := by
  cases d <;> rfl

@[simp] theorem children_merged (d : Description) : d.merged.children = mergedAll d.children := by
  cases d <;> rfl

/-! ### Descriptions that are the same -/

/-- The same description, where attributes may stand in different orders. -/
inductive Same : Description → Description → Prop
  | text (content : String) : Same (.text content) (.text content)
  | comment (content : String) : Same (.comment content) (.comment content)
  | element {tag : String} {attributes₁ attributes₂ : Attributes}
      {children₁ children₂ : List Description} (hattributes : attributes₁.Same attributes₂)
      (hchildren : List.Forall₂ Same children₁ children₂) :
      Same (.element tag attributes₁ children₁) (.element tag attributes₂ children₂)

namespace Same

variable {d₁ d₂ : Description}

theorem kind (h : d₁.Same d₂) : d₁.kind.Same d₂.kind := by
  cases h with
  | text content => exact .refl _
  | comment content => exact .refl _
  | element hattributes _ => exact .element ⟨rfl, hattributes⟩

theorem children (h : d₁.Same d₂) : List.Forall₂ Same d₁.children d₂.children := by
  cases h with
  | text content => exact .nil
  | comment content => exact .nil
  | element _ hchildren => exact hchildren

theorem isElement_iff (h : d₁.Same d₂) : d₁.isElement = true ↔ d₂.isElement = true := by
  cases h <;> rfl

end Same

/-! ### What merging keeps -/

theorem filter_isElement_join (content : String) (ds : List Description) :
    (join (.text content) ds).filter isElement = ds.filter isElement := by
  unfold join
  split <;> simp_all [isElement, tag?]

/-- **Elements are kept**, and what is below them is merged. -/
theorem filter_isElement_mergedAll (ds : List Description) :
    (mergedAll ds).filter isElement = (ds.filter isElement).map merged := by
  induction ds with
  | nil => rfl
  | cons d rest ih =>
      cases d with
      | text content => simp [filter_isElement_join, ih, isElement, tag?]
      | comment content => simp [ih, isElement, tag?]
      | element tag attributes children =>
          exact congrArg (element tag attributes (mergedAll children) :: ·) ih

theorem ofText_append (preserve : Bool) (content more : String) :
    Piece.ofText preserve (content ++ more) =
      Piece.ofText preserve content ++ Piece.ofText preserve more := by
  simp [Piece.ofText]

theorem flatMap_ownPieces_join (preserve : Bool) (content : String)
    (ds : List Description) :
    (join (.text content) ds).flatMap (·.kind.ownPieces preserve) =
      Piece.ofText preserve content ++ ds.flatMap (·.kind.ownPieces preserve) := by
  unfold join
  split <;> simp_all [kind, NodeKind.ownPieces, ofText_append]

/-- **Owned text is kept.** -/
theorem flatMap_ownPieces_mergedAll (preserve : Bool) (ds : List Description) :
    (mergedAll ds).flatMap (·.kind.ownPieces preserve) =
      ds.flatMap (·.kind.ownPieces preserve) := by
  induction ds with
  | nil => rfl
  | cons d rest ih =>
      cases d with
      | text content =>
          rw [mergedAll_text, flatMap_ownPieces_join, ih]
          rfl
      | comment content => exact ih
      | element tag attributes children =>
          rw [mergedAll_element, List.flatMap_cons, List.flatMap_cons, ih]
          rfl

theorem all_isNothing_join (content : String) (ds : List Description) :
    (join (.text content) ds).all (·.kind.isNothing) =
      (Text.isBlankText content && ds.all (·.kind.isNothing)) := by
  unfold join
  split <;> simp_all [kind, NodeKind.isNothing, Text.isBlankText, Bool.and_assoc]

/-- **Emptiness is kept.** -/
theorem all_isNothing_mergedAll (ds : List Description) :
    (mergedAll ds).all (·.kind.isNothing) = ds.all (·.kind.isNothing) := by
  induction ds with
  | nil => rfl
  | cons d rest ih =>
      cases d with
      | text content =>
          rw [mergedAll_text, all_isNothing_join, ih]
          rfl
      | comment content => exact ih
      | element tag attributes children => rfl

/-- Lists that merge alike hold the same elements, one by one, and what is below these merges
alike again. -/
theorem forall₂_isElement_of_mergedAll {ds₁ ds₂ : List Description}
    (h : List.Forall₂ Same (mergedAll ds₁) (mergedAll ds₂)) :
    List.Forall₂ (fun d₁ d₂ => d₁.kind.Same d₂.kind ∧
        List.Forall₂ Same (mergedAll d₁.children) (mergedAll d₂.children))
      (ds₁.filter isElement) (ds₂.filter isElement) := by
  have hmerged : List.Forall₂ Same ((ds₁.filter isElement).map merged)
      ((ds₂.filter isElement).map merged) := by
    rw [← filter_isElement_mergedAll, ← filter_isElement_mergedAll]
    exact List.rel_filter (fun _ _ hd => hd.isElement_iff) h
  rw [List.forall₂_map_left_iff, List.forall₂_map_right_iff] at hmerged
  refine hmerged.imp fun d₁ d₂ hd => ?_
  have hkind := hd.kind
  have hchildren := hd.children
  rw [kind_merged, kind_merged] at hkind
  rw [children_merged, children_merged] at hchildren
  exact ⟨hkind, hchildren⟩

end Description

end MarkupQuery
