import MarkupQuery.Selector.Basic
import MarkupQuery.Tree.Content

/-!
# Matching

Whether a node of a tree satisfies a selector, relative to a scope root.  A chain
is tested from its subject outward: each combinator leads from a node to the nodes
where the rest of the chain may hold, and one of them has to satisfy it.  No walk
goes beyond the scope root.

* `Simple.condition` — the meaning of a simple selector;
* `Matcher.satisfies` — a compound, where an ordinal counts the competitors of a
  node: the elements before it that pass what stands before the ordinal;
* `Complex.accepts` — a chain;
* `Matcher.accepts`, `Matcher.selectAll` — lists of alternatives.
-/

namespace MarkupQuery

/-- Where selectors are evaluated: a tree, the root of the scope, and the engine
that patterns are searched with. -/
structure Matcher where
  tree : Tree
  engine : PatternEngine
  scope : NodeId

/-! ### Conditions on a single element -/

/-- Whether the value of an attribute, if there is one, compares with the expected
one.  A missing attribute differs from everything but the empty value. -/
def ValueOperator.holds (op : ValueOperator) (expected : AttributeValue)
    (actual : Option String) : Bool :=
  match op with
  | equals => actual.any fun a => expected.prepare (Text.trimmed a) == expected.value
  | notEquals => expected.prepare (Text.trimmed (actual.getD "")) != expected.value
  | startsWith => actual.any fun a =>
    expected.value.toList.isPrefixOf (expected.prepare a).toList
  | endsWith => actual.any fun a =>
    expected.value.toList.isSuffixOf (expected.prepare a).toList
  | contains => actual.any fun a =>
    Text.occursIn expected.value.toList (expected.prepare a).toList

/-- Whether an element's attributes satisfy a condition. -/
def AttributeTest.holds (engine : PatternEngine) (e : Element) : AttributeTest → Bool
  | present name => e.hasAttribute name
  | nameStart start => e.attributes.entries.any fun entry =>
    start.toList.isPrefixOf (Text.asciiLowered entry.1).toList
  | value op name expected => op.holds expected (e.attribute? name)
  | pattern name p => (e.attribute? name).any (engine.search p)

/-- Whether a child leaves its parent empty: it is a comment or blank text. -/
def Tree.isNothing (t : Tree) (child : NodeId) : Bool :=
  match t.kind? child with
  | some (.text content) => Text.isBlankText content
  | some (.comment _) => true
  | _ => false

/-- Whether a node is an element with the tag name of `e`, ignoring ASCII case. -/
def Tree.isOfType (t : Tree) (e : Element) (id : NodeId) : Bool :=
  (t.element? id).any (·.isNamed e.tagName)

/-- Whether an element of a tree satisfies a structural condition. -/
def StructuralTest.holds (t : Tree) (e : Element) (id : NodeId) : StructuralTest → Bool
  | root => t.documentElement? == some id
  | firstChild => (t.precedingElements id).isEmpty
  | lastChild => (t.parent? id).any fun p => (t.elementChildren p).getLast? == some id
  | onlyChild => (t.parent? id).any fun p => (t.elementChildren p).length == 1
  | firstOfType => !(t.precedingElements id).any (t.isOfType e)
  | lastOfType => (t.parent? id).any fun p =>
    ((t.elementChildren p).filter (t.isOfType e)).getLast? == some id
  | empty => (t.children id).all t.isNothing

/-- The text of a node that is meant. -/
def Extent.textOf (t : Tree) (id : NodeId) : Extent → String
  | own => t.ownText id
  | whole => t.text id

/-- What a simple selector asks of a node. -/
inductive Condition where
  /-- The node has a property. -/
  | holds (p : NodeId → Bool)
  /-- The node's position among its competitors passes. -/
  | ordinal (o : Ordinal)

namespace Matcher

/-- The condition that a node is an element with a property. -/
def onElement (m : Matcher) (p : NodeId → Element → Bool) : Condition :=
  .holds fun id => (m.tree.element? id).any (p id)

/-! ### Walks within the scope -/

/-- The ids up to and including the first that is `last`. -/
def upTo (last : NodeId) : List NodeId → List NodeId
  | [] => []
  | id :: rest => if id = last then [id] else id :: upTo last rest

/-- The ancestors of a node as far as the scope root. -/
def scopedAncestors (m : Matcher) (id : NodeId) : List NodeId :=
  upTo m.scope (m.tree.ancestors id)

/-- The nodes that a combinator leads to. -/
def reached (m : Matcher) (via : Combinator) (id : NodeId) : List NodeId :=
  match via with
  | .descendant => m.scopedAncestors id
  | .child => (m.tree.parent? id).toList
  | .nextSibling => (m.tree.precedingElements id).head?.toList
  | .subsequentSibling => m.tree.precedingElements id

/-- Whether a node is related by a combinator to one that the left chain accepts.
Nothing is related to the scope root. -/
def relates (m : Matcher) (via : Combinator) (left : NodeId → Bool) (id : NodeId) : Bool :=
  id != m.scope && (m.reached via id).any left

/-! ### Compounds -/

/-- The number of elements before a node that compete with it.  The scope root has
no competitors. -/
def rank (m : Matcher) (competes : NodeId → Bool) (id : NodeId) : Nat :=
  if id = m.scope then 0 else (m.tree.precedingElements id).countP competes

/-- Whether a node satisfies conditions in order.  `competes` tells the competitors
that are counted by an ordinal: they satisfy every property asked for before it. -/
def satisfies (m : Matcher) (competes : NodeId → Bool) : List Condition → NodeId → Bool
  | [], _ => true
  | .holds p :: rest, id =>
    p id && m.satisfies (fun other => competes other && p other) rest id
  | .ordinal o :: rest, id => o.accepts (m.rank competes id) && m.satisfies competes rest id

end Matcher

/-! ### Selectors -/

mutual

/-- What a simple selector asks of a node. -/
def Simple.condition (m : Matcher) : Simple → Condition
  | .type name => m.onElement fun _ e =>
    Text.sameAsciiCaseless (Text.trimmed e.tagName) name
  | .universal => m.onElement fun _ _ => true
  | .id name => m.onElement fun _ e => e.id?.any (Text.sameAsciiCaseless · name)
  | .ofClass name => m.onElement fun _ e => e.hasClass name
  | .attribute test => m.onElement fun _ e => test.holds m.engine e
  | .scope => .holds (· == m.scope)
  | .structural test => m.onElement fun id e => test.holds m.tree e id
  | .has list => m.onElement fun id _ =>
    (m.tree.descendants id).any fun below =>
      m.tree.isElement below && Complex.anyAccepts { m with scope := id } list below
  | .not list => m.onElement fun id _ => !Complex.anyAccepts m list id
  | .contains extent text => m.onElement fun id _ =>
    Text.occursIn text.toList (Text.lowered (extent.textOf m.tree id)).toList
  | .finds extent pattern => m.onElement fun id _ =>
    m.engine.search pattern (extent.textOf m.tree id)
  | .ordinal o => .ordinal o

/-- What the simple selectors of a compound ask of a node. -/
def Simple.conditions (m : Matcher) : List Simple → List Condition
  | [] => []
  | s :: rest => s.condition m :: Simple.conditions m rest

/-- Whether a node satisfies the subject of a chain, and is related as the chain
says to nodes that satisfy the rest of it. -/
def Complex.accepts (m : Matcher) : Complex → NodeId → Bool
  | .only compound, id => m.satisfies (fun _ => true) (Simple.conditions m compound) id
  | .linked compound via left, id =>
    m.satisfies (m.relates via (Complex.accepts m left)) (Simple.conditions m compound) id &&
      m.relates via (Complex.accepts m left) id

/-- Whether a node is accepted by one of some chains. -/
def Complex.anyAccepts (m : Matcher) : List Complex → NodeId → Bool
  | [], _ => false
  | c :: rest, id => c.accepts m id || Complex.anyAccepts m rest id

end

namespace Matcher

/-- Whether a list of alternatives accepts a node.  The node has to lie within the
scope, to which the scope root belongs. -/
def accepts (m : Matcher) (list : SelectorList) (id : NodeId) : Bool :=
  (id == m.scope || m.tree.isBelow id m.scope) && Complex.anyAccepts m list id

/-- The elements below the scope root that match, in document order. -/
def selectAll (m : Matcher) (list : SelectorList) : List NodeId :=
  (m.tree.descendants m.scope).filter fun id =>
    m.tree.isElement id && Complex.anyAccepts m list id

end Matcher

end MarkupQuery
