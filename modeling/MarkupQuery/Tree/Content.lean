import MarkupQuery.Tree.Walk

/-!
# Text content

The text of a node is that of the text nodes below it, with runs of white space
collapsed to single spaces.  Blocks and line breaks keep the texts around them
apart, and the text of tags such as `pre` keeps its white space.

* `Piece` — text content is first laid out as characters and gaps;
* `join` — a gap becomes a space where text stands before it and none ends it;
* `Tree.text`, `Tree.ownText` — the text of everything below, and of the text
  children alone.
-/

namespace MarkupQuery

/-- A part of text content: a character to be kept, or a place where words come
apart. -/
inductive Piece where
  | keep (c : Char)
  | gap
  deriving DecidableEq, Repr

namespace Piece

/-- The pieces of the content of a text node. -/
def ofText (preserve : Bool) (content : String) : List Piece :=
  content.toList.map fun c => if !preserve && Text.isBlank c then gap else keep c

/-- Adds a piece to a text written last character first. -/
def addTo (written : List Char) : Piece → List Char
  | keep c => c :: written
  | gap =>
    match written with
    | [] => []
    | c :: _ => if Text.isBlank c then written else ' ' :: written

/-- The text that pieces make, trimmed. -/
def join (pieces : List Piece) : String :=
  String.ofList (Text.trim (pieces.foldl addTo []).reverse)

end Piece

namespace Tree

/-- Whether a node is a block element. -/
def isBlock (t : Tree) (id : NodeId) : Bool := (t.element? id).any (·.isBlock)

/-- Whether text directly in a node keeps its white space: the node or its parent
has a tag that preserves it. -/
def preservesWhitespace (t : Tree) (id : NodeId) : Bool :=
  (id :: (t.parent? id).toList).any fun n => (t.element? n).any (·.preservesWhitespace)

/-- What a node met on the way down adds to the text.  Text after a block starts
apart from it, and so does what follows the start of a block or a line break. -/
def pieces (t : Tree) (id : NodeId) : List Piece :=
  match t.kind? id with
  | some (.text content) =>
    (if (t.prev? id).any t.isBlock then [.gap] else []) ++
      Piece.ofText ((t.parent? id).any t.preservesWhitespace) content
  | some (.element e) => if e.isNamed "br" || e.isBlock then [.gap] else []
  | _ => []

/-- What a child of a node adds to the node's own text. -/
def ownPieces (t : Tree) (preserve : Bool) (child : NodeId) : List Piece :=
  match t.kind? child with
  | some (.text content) => Piece.ofText preserve content
  | some (.element e) => if e.isNamed "br" then [.gap] else []
  | _ => []

/-- The text of everything below a node. -/
def text (t : Tree) (id : NodeId) : String :=
  Piece.join ((t.descendants id).flatMap t.pieces)

/-- The text of a node's own text children. -/
def ownText (t : Tree) (id : NodeId) : String :=
  Piece.join ((t.children id).flatMap (t.ownPieces (t.preservesWhitespace id)))

end Tree

end MarkupQuery
