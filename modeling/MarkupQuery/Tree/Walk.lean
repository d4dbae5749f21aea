import MarkupQuery.Tree.Basic

/-!
# Walks

Ways through a tree: up along the parents, back along the earlier siblings, and
down through everything below a node in document order.  In a tree whose links
agree no walk is longer than the tree has nodes, so that many steps are always
enough.

* `ancestors`, `precedingSiblings` — nearest first;
* `descendants` — document order, without the node itself.
-/

namespace MarkupQuery.Tree

/-- The nodes reached by following `step` from a node, at most `fuel` of them. -/
def follow (step : NodeId → Option NodeId) : Nat → NodeId → List NodeId
  | 0, _ => []
  | fuel + 1, id =>
    match step id with
    | none => []
    | some next => next :: follow step fuel next

/-- The parent of a node, its parent, and so on up. -/
def ancestors (t : Tree) (id : NodeId) : List NodeId := follow t.parent? t.size id

/-- The siblings before a node, nearest first. -/
def precedingSiblings (t : Tree) (id : NodeId) : List NodeId := follow t.prev? t.size id

/-- The elements among the siblings before a node, nearest first. -/
def precedingElements (t : Tree) (id : NodeId) : List NodeId :=
  (t.precedingSiblings id).filter t.isElement

/-- The nodes of a list, each followed by what is below it, down to a depth. -/
def preorder (t : Tree) : Nat → List NodeId → List NodeId
  | 0, _ => []
  | depth + 1, ids => ids.flatMap fun id => id :: preorder t depth (t.children id)

/-- Everything below a node, in document order. -/
def descendants (t : Tree) (id : NodeId) : List NodeId := t.preorder t.size (t.children id)

/-- Whether a node is strictly below another one. -/
def isBelow (t : Tree) (id above : NodeId) : Bool := (t.ancestors id).contains above

end MarkupQuery.Tree
