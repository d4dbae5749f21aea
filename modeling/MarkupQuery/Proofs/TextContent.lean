import MarkupQuery.Proofs.Growth
import MarkupQuery.Proofs.DocumentOrder
import MarkupQuery.Proofs.Pieces
import MarkupQuery.Proofs.TagNames

/-!
# What the text of a node says

The text of a node is made of the text nodes below it, in document order.  Only white space is
folded, put in and cut off, and every character can be traced back to the node that it is from.

* `Tree.pieces_cases`, `ownPieces_cases` — what a node adds to the text around it;
* `Tree.tracedText` — the text of a node with the origins of its characters;
* `Tree.Preserved` — text whose white space is kept, said by tag names;
* `Reachable.text_isInfix` — the text of a node is a part of the text of what it is in;
* `Reachable.text_conserved` — nothing but white space is lost or put in, and what white space
  there is.
-/

namespace MarkupQuery

/-! ### Pieces of text nodes -/

namespace Tree

variable {t : Tree} {x : NodeId}

/-- The letters of a text node. -/
def letters (t : Tree) (x : NodeId) : List Char :=
  match t.text? x with
  | some content => Text.letters content.toList
  | none => []

theorem filterMap_letter?_ofText (preserve : Bool) (content : String) :
    (Piece.ofText preserve content).filterMap Piece.letter? = Text.letters content.toList := by
  rw [Piece.ofText, List.filterMap_map, Text.letters, ← List.filterMap_eq_filter]
  refine List.filterMap_congr fun c _ => ?_
  by_cases hc : Text.isBlank c <;> cases preserve <;>
    simp [Piece.letter?, Option.guard, hc]

/-- Whether a node is a line break. -/
def isBreak (t : Tree) (x : NodeId) : Bool := (t.element? x).any (·.isNamed "br")

/-- **What a node adds** on the way down: a text its content, with a gap before it if it comes
right after a block; a break or a block a gap; and any other node nothing. -/
theorem pieces_cases (t : Tree) (x : NodeId) :
    (∃ content, t.text? x = some content ∧ (t.isBreak x || t.isBlock x) = false ∧
      t.pieces x = (if (t.prev? x).any t.isBlock then [.gap] else []) ++
        Piece.ofText ((t.parent? x).any t.preservesWhitespace) content) ∨
    (t.text? x = none ∧ t.pieces x = if t.isBreak x || t.isBlock x then [.gap] else []) := by
  rcases hkind : t.kind? x with _ | k
  · exact .inr (by simp [pieces, text?, isBreak, isBlock, element?, hkind])
  · cases k with
    | text content =>
        exact .inl (by simp [pieces, text?, isBreak, isBlock, element?, hkind])
    | _ => exact .inr (by simp [pieces, text?, isBreak, isBlock, element?, hkind])

/-- What a child adds to the text that a node owns is its text or, at most, a gap. -/
theorem ownPieces_cases (t : Tree) (preserve : Bool) (x : NodeId) :
    (∃ content, t.text? x = some content ∧
      t.ownPieces preserve x = Piece.ofText preserve content) ∨
    (t.text? x = none ∧ (t.ownPieces preserve x = [] ∨ t.ownPieces preserve x = [.gap])) := by
  rcases hkind : t.kind? x with _ | k
  · exact .inr (by simp [ownPieces, text?, hkind])
  · cases k with
    | text content => exact .inl (by simp [ownPieces, text?, hkind])
    | element e =>
        by_cases hgap : e.isNamed "br" = true <;>
          exact .inr (by simp [ownPieces, text?, hkind, hgap])
    | _ => exact .inr (by simp [ownPieces, text?, hkind])

/-- What a node on the way down adds to a text has the letters of the node. -/
theorem filterMap_letter?_pieces (t : Tree) (x : NodeId) :
    (t.pieces x).filterMap Piece.letter? = t.letters x := by
  obtain ⟨content, htext, -, hpieces⟩ | ⟨htext, hpieces⟩ := t.pieces_cases x
  · rw [hpieces, List.filterMap_append, filterMap_letter?_ofText, letters, htext]
    split <;> rfl
  · rw [hpieces, letters, htext]
    split <;> rfl

/-- What a child adds to the text that a node owns has the letters of the child. -/
theorem filterMap_letter?_ownPieces (t : Tree) (preserve : Bool) (x : NodeId) :
    (t.ownPieces preserve x).filterMap Piece.letter? = t.letters x := by
  obtain ⟨content, htext, hpieces⟩ | ⟨htext, hpieces | hpieces⟩ := t.ownPieces_cases preserve x
  · rw [hpieces, filterMap_letter?_ofText, letters, htext]
  · simp [hpieces, letters, htext]
  · simp [hpieces, letters, htext, Piece.letter?]

/-! ### White space that is kept -/

/-- A node whose parent or grandparent is an element with a tag that preserves white space. -/
def Preserved (t : Tree) (x : NodeId) : Prop :=
  ∃ p, t.parent? x = some p ∧ ∃ a ∈ p :: (t.parent? p).toList, ∃ e, t.element? a = some e ∧
    Text.lowered (Text.trimmed e.tagName) ∈ preserveWhitespaceNames

theorem preserved_iff : t.Preserved x ↔ (t.parent? x).any t.preservesWhitespace = true := by
  rw [Option.any_eq_true]
  refine exists_congr fun p => and_congr_right fun _ => ?_
  rw [preservesWhitespace, List.any_eq_true]
  refine exists_congr fun a => and_congr_right fun _ => ?_
  rw [Option.any_eq_true]
  exact exists_congr fun e => and_congr_right fun _ => Element.preservesWhitespace_iff.symm

/-- Text that is not preserved keeps no blank. -/
theorem not_isBlank_of_keep_mem_ofText {content : String} {c : Char}
    (h : Piece.keep c ∈ Piece.ofText false content) : Text.isBlank c = false := by
  obtain ⟨d, -, hd⟩ := List.mem_map.1 h
  by_cases hblank : Text.isBlank d
  · simp [hblank] at hd
  · simp only [hblank, Bool.not_false, Bool.and_false, Bool.false_eq_true, if_false,
      Piece.keep.injEq] at hd
    exact hd ▸ Bool.eq_false_iff.2 hblank

/-- What is kept on the way down is from a text node. -/
theorem exists_text_of_keep_mem_pieces {c : Char} (h : Piece.keep c ∈ t.pieces x) :
    ∃ content, t.text? x = some content ∧
      Piece.keep c ∈ Piece.ofText ((t.parent? x).any t.preservesWhitespace) content := by
  have hgap : ∀ b : Bool, Piece.keep c ∉ if b then [Piece.gap] else [] := by
    intro b
    cases b <;> simp
  obtain ⟨content, htext, -, hpieces⟩ | ⟨-, hpieces⟩ := t.pieces_cases x
  · rw [hpieces, List.mem_append] at h
    exact ⟨content, htext, h.resolve_left (hgap _)⟩
  · exact absurd (hpieces ▸ h) (hgap _)

/-- What is kept of a child is from a text node. -/
theorem exists_text_of_keep_mem_ownPieces {preserve : Bool} {c : Char}
    (h : Piece.keep c ∈ t.ownPieces preserve x) :
    ∃ content, t.text? x = some content ∧ Piece.keep c ∈ Piece.ofText preserve content := by
  obtain ⟨content, htext, hpieces⟩ | ⟨-, hpieces | hpieces⟩ := t.ownPieces_cases preserve x
  · exact ⟨content, htext, hpieces ▸ h⟩
  · simp [hpieces] at h
  · simp [hpieces] at h

/-! ### The text of a node -/

/-- The text of everything below a node, each character with the node that it is from. -/
def tracedText (t : Tree) (id : NodeId) : List (Char × NodeId) :=
  Piece.joinFrom (Piece.signed t.pieces (t.descendants id))

/-- **Tracing** shows the text as it is. -/
theorem map_fst_tracedText (t : Tree) (id : NodeId) :
    (t.tracedText id).map (·.1) = (t.text id).toList := by
  rw [tracedText, Piece.map_fst_joinFrom, Piece.map_fst_signed, text]

/-- **Origins.**  The letters that are from a node are the letters of that node, and the nodes
come in document order. -/
theorem filter_tracedText (t : Tree) (id : NodeId) :
    (t.tracedText id).filter (!Piece.isBlankAt ·) =
      (t.descendants id).flatMap fun x => (t.letters x).map (·, x) := by
  rw [tracedText, Piece.filter_joinFrom_signed]
  simp only [filterMap_letter?_pieces]

/-- The text of a node is a part of the text of a node that it is below of, and from the same
nodes. -/
theorem Forest.tracedText_isInfix (h : t.Forest) {d a : NodeId} (hd : t.Below d a) :
    t.tracedText d <:+: t.tracedText a := by
  have hwalk : t.descendants d <:+: t.descendants a :=
    (List.suffix_cons _ _).isInfix.trans (h.descendants_isInfix hd)
  obtain ⟨front, back, hsplit⟩ := hwalk
  refine Piece.joinFrom_isInfix ⟨Piece.signed t.pieces front, Piece.signed t.pieces back, ?_⟩
  rw [← hsplit, Piece.signed_append, Piece.signed_append]

/-- **The text of a node is part of the text of everything around it.** -/
theorem Reachable.text_isInfix (h : Reachable t) {d a : NodeId} (hd : t.Below d a) :
    (t.text d).toList <:+: (t.text a).toList := by
  rw [← map_fst_tracedText, ← map_fst_tracedText]
  exact (h.forest.tracedText_isInfix hd).map _

/-- The text of a `pre`, with the white space it keeps, is part of a text that is folded. -/
theorem text_isInfix_pre : ∃ t, Reachable t ∧ t.Below 3 1 ∧ t.text 3 = "b\n c" ∧
    t.text 1 = "a  b\n c d" ∧ (t.text 3).toList <:+: (t.text 1).toList := by
  have h := Reachable.empty.appendDescription .empty root
    (.element "div" .empty [.text " a ",
      .element "pre" .empty [.text " b\n", .element "span" .empty [.text " c"]],
      .comment "", .element "br" .empty [], .text "d"]) fun _ _ => by decide
  have hbelow : Tree.Below _ 3 1 := h.forest.mem_descendants.1 (by decide +kernel)
  exact ⟨_, h, hbelow, by decide +kernel, by decide +kernel, Reachable.text_isInfix h hbelow⟩

/-- **Nothing but white space is lost or put in.**  Without white space, the text of a node
is the letters of the text nodes below it in document order, and the text that it owns those
of its text children.  Neither has white space at its ends; and where no text node has a
parent or grandparent that preserves white space, there is only a single space here and there
between two letters. -/
theorem Reachable.text_conserved (h : Reachable t) (id : NodeId) :
    ((t.descendants id).Pairwise t.Precedes ∧ (∀ x, x ∈ t.descendants id ↔ t.Below x id) ∧
      (t.children id).Pairwise t.Precedes) ∧
    (Text.letters (t.text id).toList = (t.descendants id).flatMap t.letters ∧
      Text.letters (t.ownText id).toList = (t.children id).flatMap t.letters) ∧
    (Text.trimmed (t.text id) = t.text id ∧ Text.trimmed (t.ownText id) = t.ownText id) ∧
    ((∀ x, t.Below x id → t.text? x ≠ none → ¬ t.Preserved x) →
      Text.Spaced (t.text id).toList) ∧
    ((∀ x ∈ t.children id, t.text? x ≠ none → ¬ t.Preserved x) →
      Text.Spaced (t.ownText id).toList) := by
  have hforest : t.Forest := h.forest
  refine ⟨⟨hforest.pairwise_descendants id, fun _ => hforest.mem_descendants,
    Forest.pairwise_children t id⟩, ⟨?_, ?_⟩,
    ⟨Piece.trimmed_join _, Piece.trimmed_join _⟩, fun hplain => ?_, fun hplain => ?_⟩
  · rw [text, Piece.letters_join, List.filterMap_flatMap]
    simp only [filterMap_letter?_pieces]
  · rw [ownText, Piece.letters_join, List.filterMap_flatMap]
    simp only [filterMap_letter?_ownPieces]
  · refine Piece.spaced_join fun p hp c hc => ?_
    subst hc
    obtain ⟨x, hx, hkeep⟩ := List.mem_flatMap.1 hp
    obtain ⟨content, htext, hmem⟩ := exists_text_of_keep_mem_pieces hkeep
    have hfolded := hplain x (hforest.mem_descendants.1 hx) (by simp [htext])
    rw [preserved_iff, Bool.not_eq_true] at hfolded
    rw [hfolded] at hmem
    exact not_isBlank_of_keep_mem_ofText hmem
  · refine Piece.spaced_join fun p hp c hc => ?_
    subst hc
    obtain ⟨x, hx, hkeep⟩ := List.mem_flatMap.1 hp
    obtain ⟨content, htext, hmem⟩ := exists_text_of_keep_mem_ownPieces hkeep
    have hfolded := hplain x hx (by simp [htext])
    rw [preserved_iff, hforest.mem_children.1 hx, Option.any_some, Bool.not_eq_true] at hfolded
    rw [hfolded] at hmem
    exact not_isBlank_of_keep_mem_ofText hmem

/-- The letters of a folded text, and its spaces. -/
theorem text_conserved_folded : ∃ t, Reachable t ∧ t.text 1 = "a b c d" ∧
    Text.letters (t.text 1).toList = (t.descendants 1).flatMap t.letters ∧
    (∀ x, t.Below x 1 → t.text? x ≠ none → ¬ t.Preserved x) ∧
    Text.Spaced (t.text 1).toList := by
  let t : Tree := (Builder.append ⟨.empty, .empty⟩ root
    (.element "div" .empty [.text "\ta\n\n", .element "p" .empty [.text " b\t"], .comment "x",
      .element "i" .empty [.text "c"], .element "br" .empty [], .text " d "])).1.tree
  have h : Reachable t := Reachable.empty.appendDescription .empty root _ fun _ _ => by decide
  have hplain : ∀ x, t.Below x 1 → t.text? x ≠ none → ¬ t.Preserved x := by
    have hall : ∀ x ∈ t.descendants 1, (t.parent? x).any t.preservesWhitespace = false := by
      decide +kernel
    intro x hx _
    rw [preserved_iff, hall x (h.forest.mem_descendants.2 hx)]
    decide
  obtain ⟨-, ⟨hletters, -⟩, -, hspaced, -⟩ := Reachable.text_conserved h 1
  exact ⟨t, h, by decide +kernel, hletters, hplain, hspaced hplain⟩

end Tree

end MarkupQuery
