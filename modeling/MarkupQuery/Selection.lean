import MarkupQuery.Selector.Matching
import MarkupQuery.Selector.Parser

/-!
# Selections

The elements found by a query, in document order and each once.  A selection can
be queried in turn, each of its elements being the scope root once.
-/

namespace MarkupQuery

/-- The elements found by a query. -/
structure Selection where
  ids : List NodeId
  deriving DecidableEq, Repr

/-- Whether a selector list accepts a node of a scope. -/
def Tree.accepts (t : Tree) (engine : PatternEngine) (scope : NodeId) (list : SelectorList)
    (id : NodeId) : Bool :=
  (Matcher.mk t engine scope).accepts list id

/-- The elements strictly below `scope` that match. -/
def Tree.select (t : Tree) (engine : PatternEngine) (scope : NodeId) (list : SelectorList) :
    Selection :=
  ⟨(Matcher.mk t engine scope).selectAll list⟩

/-- Reads a selector and runs it below `scope`. -/
def Tree.query (t : Tree) (parser : Parser) (scope : NodeId) (text : String) :
    Outcome Selection :=
  (parser.parse text).map (t.select parser.engine scope)

namespace Selection

/-- The selection of nothing. -/
def empty : Selection := ⟨[]⟩

/-- The number of elements. -/
def size (s : Selection) : Nat := s.ids.length

/-- Whether nothing was found. -/
def isEmpty (s : Selection) : Bool := s.ids.isEmpty

/-- The element at an index. -/
def get? (s : Selection) (index : Nat) : Option NodeId := s.ids[index]?

/-- The first element. -/
def first? (s : Selection) : Option NodeId := s.ids.head?

/-- The last element. -/
def last? (s : Selection) : Option NodeId := s.ids.getLast?

/-- Whether an element was found. -/
def contains (s : Selection) (id : NodeId) : Bool := s.ids.contains id

/-- The elements found below one of the selected ones or another, in document
order. -/
def select (s : Selection) (t : Tree) (engine : PatternEngine) (list : SelectorList) :
    Selection :=
  let found := s.ids.flatMap fun scope => (t.select engine scope list).ids
  ⟨(t.descendants Tree.root).filter found.contains⟩

/-- Reads a selector and runs it below each of the selected elements. -/
def query (s : Selection) (t : Tree) (parser : Parser) (text : String) : Outcome Selection :=
  (parser.parse text).map (s.select t parser.engine)

end Selection

end MarkupQuery
