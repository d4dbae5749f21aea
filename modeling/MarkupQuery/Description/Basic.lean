import MarkupQuery.Tree.Content
import MarkupQuery.Warning

/-!
# Descriptions and the trees they build

A description says what a tree is to hold.  Building allocates an element before
its children, so that ids follow document order, and appends it to its parent
after them.

* `Builder.append` adds a description below a node; when it fails, what was
  allocated until then stays where it is;
* `Tree.build` starts from a document alone;
* an unknown tag name is reported once for as long as the log remembers it.
-/

namespace MarkupQuery

/-- A node of a tree to be built. -/
inductive Description where
  | text (content : String)
  | comment (content : String)
  | element (tag : String) (attributes : Attributes) (children : List Description)
  deriving Inhabited

/-- What a JSON value is expected to describe. -/
inductive Shape where
  /-- A node or a list of nodes. -/
  | document
  | node
  deriving DecidableEq, Repr

/-- The reason why a tree cannot be built or added to. -/
inductive TreeError where
  /-- The text is not JSON. -/
  | notJson
  /-- The JSON value does not describe what it should. -/
  | mismatch (expected : Shape)
  /-- An element has no proper tag name. -/
  | tag (e : TagError)
  /-- The node to add to does not exist. -/
  | dangling (e : DanglingId)
  deriving DecidableEq, Repr

/-- The name by which an expected shape is reported. -/
def Shape.reportedName : Shape → String
  | .document => "DocumentSpec"
  | .node => "NodeSpec"

/-- The wording of the error. -/
def TreeError.message : TreeError → String
  | .notJson => "invalid tree description: not a JSON text"
  | .mismatch shape =>
    "invalid tree description: data did not match any variant of untagged enum " ++
      shape.reportedName
  | .tag e => e.message
  | .dangling e => "there is no node " ++ toString e.id

/-- A tree under construction, with the warnings given so far. -/
structure Builder where
  tree : Tree
  log : WarningLog

namespace Builder

/-- Reports a tag that is not registered. -/
def noteTag (b : Builder) (tag : Tag) : Builder :=
  if tag.isKnown then b else { b with log := (b.log.warn (.unknownTag tag.name)).1 }

/-- Allocates a detached node. -/
def alloc (b : Builder) (kind : NodeKind) : Builder × NodeId :=
  let (tree, id) := b.tree.alloc kind
  ({ b with tree }, id)

/-- Appends an allocated node to its parent. -/
def link (b : Builder) (parent id : NodeId) : Builder × Except TreeError NodeId :=
  match b.tree.appendChild parent id with
  | (tree, .ok ()) => ({ b with tree }, .ok id)
  | (tree, .error e) => ({ b with tree }, .error (.dangling e))

mutual

/-- Adds a described node as the last child of `parent`; gives its id. -/
def append (b : Builder) (parent : NodeId) :
    Description → Builder × Except TreeError NodeId
  | .text content =>
    let (b, id) := b.alloc (.text content)
    b.link parent id
  | .comment content =>
    let (b, id) := b.alloc (.comment content)
    b.link parent id
  | .element tag attributes children =>
    match Tag.ofName tag with
    | .error e => (b, .error (.tag e))
    | .ok known =>
      let (b, id) := (b.noteTag known).alloc (.element ⟨Text.trimmed tag, attributes⟩)
      match b.appendAll id children with
      | (b, .error e) => (b, .error e)
      | (b, .ok ()) => b.link parent id

/-- Adds described nodes one after the other, up to the first that fails. -/
def appendAll (b : Builder) (parent : NodeId) :
    List Description → Builder × Except TreeError Unit
  | [] => (b, .ok ())
  | d :: rest =>
    match b.append parent d with
    | (b, .error e) => (b, .error e)
    | (b, .ok _) => b.appendAll parent rest

end

end Builder

/-- Builds the tree whose document has the described children.  The log takes up
what was noticed, also when building fails. -/
def Tree.build (log : WarningLog) (nodes : List Description) :
    WarningLog × Except TreeError Tree :=
  match Builder.appendAll ⟨.empty, log⟩ Tree.root nodes with
  | (b, .ok ()) => (b.log, .ok b.tree)
  | (b, .error e) => (b.log, .error e)

end MarkupQuery
