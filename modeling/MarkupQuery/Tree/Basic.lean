import MarkupQuery.Tree.Element

/-!
# Trees

A tree is an arena of nodes that name each other by position.  The first node is
the document.  Nodes are allocated detached, and appended to a parent later.

* `Tree.alloc` adds a detached node;
* `Tree.appendChild` links a node as the last child of another one, and stops
  half-way when one of the ids it needs names no node;
* reading through an id that names no node finds nothing, and never fails.
-/

namespace MarkupQuery

/-- The position of a node in its tree. -/
abbrev NodeId := Nat

/-- What a node is. -/
inductive NodeKind where
  | document
  | element (e : Element)
  | text (content : String)
  | comment (content : String)
  deriving DecidableEq

/-- A node with its links. -/
structure Node where
  kind : NodeKind
  parent : Option NodeId
  children : List NodeId
  next : Option NodeId
  prev : Option NodeId
  deriving DecidableEq

instance : Inhabited Node := ⟨⟨.document, none, [], none, none⟩⟩

/-- A node that is linked to no other. -/
def Node.detached (kind : NodeKind) : Node := ⟨kind, none, [], none, none⟩

/-- A tree of nodes. -/
structure Tree where
  nodes : Array Node

/-- A link was to be written to an id that names no node. -/
structure DanglingId where
  id : NodeId
  deriving DecidableEq, Repr

namespace Tree

/-- The id of the document. -/
def root : NodeId := 0

/-- The tree that holds nothing but the document. -/
def empty : Tree := ⟨#[Node.detached .document]⟩

/-- The number of nodes, attached or not. -/
def size (t : Tree) : Nat := t.nodes.size

/-- The node of an id. -/
def get? (t : Tree) (id : NodeId) : Option Node := t.nodes[id]?

/-- Changes the node of an id, if there is one. -/
def modify (t : Tree) (id : NodeId) (f : Node → Node) : Tree := ⟨t.nodes.modify id f⟩

/-- Adds a detached node; its id is the old size. -/
def alloc (t : Tree) (kind : NodeKind) : Tree × NodeId :=
  (⟨t.nodes.push (Node.detached kind)⟩, t.size)

/-- Makes `child` the last child of `parent`.  The child is entered among the
children first, then it gets its parent, and then it is linked with the child that
was last before.  If an id names no node, what was done until then stays. -/
def appendChild (t : Tree) (parent child : NodeId) : Tree × Except DanglingId Unit :=
  match t.get? parent with
  | none => (t, .error ⟨parent⟩)
  | some p =>
    let t := t.modify parent fun n => { n with children := n.children ++ [child] }
    if child < t.size then
      let t := t.modify child fun n => { n with parent := some parent }
      match p.children.getLast? with
      | none => (t, .ok ())
      | some last =>
        if last < t.size then
          let t := t.modify last fun n => { n with next := some child }
          (t.modify child fun n => { n with prev := some last }, .ok ())
        else (t, .error ⟨last⟩)
    else (t, .error ⟨child⟩)

/-- Allocates a node and appends it to `parent`.  The node stays allocated even if
there is no such parent. -/
def appendNew (t : Tree) (parent : NodeId) (kind : NodeKind) :
    Tree × Except DanglingId NodeId :=
  let (t, id) := t.alloc kind
  let (t, outcome) := t.appendChild parent id
  (t, outcome.map fun _ => id)

/-- Appends a new element. -/
def appendElement (t : Tree) (parent : NodeId) (e : Element) :
    Tree × Except DanglingId NodeId :=
  t.appendNew parent (.element e)

/-- Appends a new text node. -/
def appendText (t : Tree) (parent : NodeId) (content : String) :
    Tree × Except DanglingId NodeId :=
  t.appendNew parent (.text content)

/-- The parent of a node. -/
def parent? (t : Tree) (id : NodeId) : Option NodeId := (t.get? id).bind (·.parent)

/-- The children of a node, in order. -/
def children (t : Tree) (id : NodeId) : List NodeId :=
  match t.get? id with
  | some n => n.children
  | none => []

/-- The sibling just after a node. -/
def next? (t : Tree) (id : NodeId) : Option NodeId := (t.get? id).bind (·.next)

/-- The sibling just before a node. -/
def prev? (t : Tree) (id : NodeId) : Option NodeId := (t.get? id).bind (·.prev)

/-- What a node is. -/
def kind? (t : Tree) (id : NodeId) : Option NodeKind := (t.get? id).map (·.kind)

/-- The element that a node is. -/
def element? (t : Tree) (id : NodeId) : Option Element :=
  match t.kind? id with
  | some (.element e) => some e
  | _ => none

/-- The content of a text node. -/
def text? (t : Tree) (id : NodeId) : Option String :=
  match t.kind? id with
  | some (.text content) => some content
  | _ => none

/-- Whether a node is an element. -/
def isElement (t : Tree) (id : NodeId) : Bool := (t.element? id).isSome

/-- The children of a node that are elements, in order. -/
def elementChildren (t : Tree) (id : NodeId) : List NodeId :=
  (t.children id).filter t.isElement

/-- The first element of the document. -/
def documentElement? (t : Tree) : Option NodeId := (t.elementChildren root).head?

/-- The first body or frame set in the document element. -/
def body? (t : Tree) : Option NodeId :=
  t.documentElement?.bind fun html =>
    (t.elementChildren html).find? fun id =>
      (t.element? id).any fun e => e.isNamed "body" || e.isNamed "frameset"

end Tree

end MarkupQuery
