import MarkupQuery.Pattern.Engine

/-!
# Selectors

A selector list is a list of alternatives.  Each alternative is a chain of
compounds, told from the subject outward: the compound that a candidate has to
satisfy, and how the candidate is related to what satisfies the rest.  A compound
is a list of simple selectors that have to hold together.

* `Complex.compounds`, `Complex.links` — the two flat views of a chain;
* `Complex.ofLinks` builds a chain from them;
* equality of selectors is decidable.
-/

namespace MarkupQuery

/-- How two compounds of a chain are related. -/
inductive Combinator where
  /-- The left one holds at an ancestor. -/
  | descendant
  /-- The left one holds at the parent. -/
  | child
  /-- The left one holds at the nearest element before. -/
  | nextSibling
  /-- The left one holds at some sibling element before. -/
  | subsequentSibling
  deriving DecidableEq, Repr

/-- The combinator that a character stands for. -/
def Combinator.ofChar? : Char → Option Combinator
  | '>' => some child
  | '+' => some nextSibling
  | '~' => some subsequentSibling
  | _ => none

/-- A value to compare with, and how. -/
structure AttributeValue where
  value : String
  case : CaseSensitivity
  deriving DecidableEq, Repr

/-- The comparison with a value as written: it is trimmed, and folded if case
does not matter. -/
def AttributeValue.ofWritten (value : String) (case : CaseSensitivity) : AttributeValue :=
  ⟨case.fold (Text.trimmed value), case⟩

/-- Brings the value of an attribute into the form that is compared. -/
def AttributeValue.prepare (expected : AttributeValue) (actual : String) : String :=
  expected.case.fold actual

/-- How the value of an attribute is compared. -/
inductive ValueOperator where
  | equals
  | notEquals
  | startsWith
  | endsWith
  | contains
  deriving DecidableEq, Repr

/-- A condition on the attributes of an element.  Names are in ASCII lower case. -/
inductive AttributeTest where
  /-- The attribute is there. -/
  | present (name : String)
  /-- The name of some attribute starts so. -/
  | nameStart (start : String)
  /-- The attribute's value compares with the expected one. -/
  | value (op : ValueOperator) (name : String) (expected : AttributeValue)
  /-- The pattern matches somewhere in the attribute's value. -/
  | pattern (name : String) (pattern : Pattern)
  deriving DecidableEq, Repr

/-- A condition on the place of an element, or on what it holds. -/
inductive StructuralTest where
  | root
  | firstChild
  | lastChild
  | onlyChild
  | firstOfType
  | lastOfType
  | empty
  deriving DecidableEq, Repr

/-- Which text of an element is meant. -/
inductive Extent where
  /-- Its own text children. -/
  | own
  /-- Everything below it. -/
  | whole
  deriving DecidableEq, Repr

/-- How a position is compared. -/
inductive OrdinalKind where
  | lt
  | gt
  | eq
  deriving DecidableEq, Repr

/-- A filter on positions, counted from zero. -/
structure Ordinal where
  kind : OrdinalKind
  bound : Nat
  deriving DecidableEq, Repr

/-- Whether a position passes the filter. -/
def Ordinal.accepts (o : Ordinal) (position : Nat) : Bool :=
  match o.kind with
  | .lt => position < o.bound
  | .gt => position > o.bound
  | .eq => position == o.bound

/-- The names of pseudo-classes. -/
inductive PseudoName where
  | scope
  | structural (test : StructuralTest)
  | has
  | not
  | contains (extent : Extent)
  | finds (extent : Extent)
  | ordinal (kind : OrdinalKind)
  deriving DecidableEq, Repr

namespace PseudoName

/-- All names. -/
def all : List PseudoName :=
  [.scope, .structural .root, .structural .firstChild, .structural .lastChild,
   .structural .onlyChild, .structural .firstOfType, .structural .lastOfType,
   .structural .empty, .has, .not, .contains .whole, .contains .own, .finds .whole,
   .finds .own, .ordinal .lt, .ordinal .gt, .ordinal .eq]

/-- The name as it is written. -/
def text : PseudoName → String
  | scope => "scope"
  | structural .root => "root"
  | structural .firstChild => "first-child"
  | structural .lastChild => "last-child"
  | structural .onlyChild => "only-child"
  | structural .firstOfType => "first-of-type"
  | structural .lastOfType => "last-of-type"
  | structural .empty => "empty"
  | has => "has"
  | not => "not"
  | contains .whole => "contains"
  | contains .own => "containsOwn"
  | finds .whole => "matches"
  | finds .own => "matchesOwn"
  | ordinal .lt => "lt"
  | ordinal .gt => "gt"
  | ordinal .eq => "eq"

/-- The name that a text is, in any ASCII case. -/
def ofText? (written : String) : Option PseudoName :=
  all.find? fun n => Text.sameAsciiCaseless n.text written

/-- Whether the pseudo-class takes an argument in parentheses. -/
def isFunctional : PseudoName → Bool
  | scope | structural _ => false
  | _ => true

end PseudoName

mutual

/-- A single condition on a candidate. -/
inductive Simple where
  /-- The tag name, in ASCII lower case, with a colon after its namespace. -/
  | type (name : String)
  | universal
  | id (name : String)
  | ofClass (name : String)
  | attribute (test : AttributeTest)
  /-- The candidate is the scope root itself. -/
  | scope
  | structural (test : StructuralTest)
  /-- Something below the candidate matches, with the candidate as scope root. -/
  | has (list : List Complex)
  /-- The candidate does not match. -/
  | not (list : List Complex)
  /-- The candidate's text, in lower case, contains this one. -/
  | contains (extent : Extent) (text : String)
  /-- The pattern matches somewhere in the candidate's text. -/
  | finds (extent : Extent) (pattern : Pattern)
  /-- The candidate's position among its competitors passes. -/
  | ordinal (o : Ordinal)

/-- A chain of compounds, from the subject outward. -/
inductive Complex where
  /-- A single compound. -/
  | only (compound : List Simple)
  /-- The subject, and how it is related to the chain on its left. -/
  | linked (compound : List Simple) (via : Combinator) (left : Complex)

end

instance : Inhabited Simple := ⟨.universal⟩

instance : Inhabited Complex := ⟨.only []⟩

/-- Simple selectors that have to hold together, in the order written. -/
abbrev Compound := List Simple

/-- Alternatives, in the order written. -/
abbrev SelectorList := List Complex

/-- Whether a simple selector filters positions. -/
def Simple.isOrdinal : Simple → Bool
  | .ordinal _ => true
  | _ => false

namespace Complex

/-- The rightmost compound. -/
def subject : Complex → Compound
  | only compound => compound
  | linked compound _ _ => compound

/-- The combinators with the compounds on their left, from the subject outward. -/
def links : Complex → List (Combinator × Compound)
  | only _ => []
  | linked _ via left => (via, left.subject) :: left.links

/-- The chain with this subject and these links. -/
def ofLinks (subject : Compound) : List (Combinator × Compound) → Complex
  | [] => only subject
  | (via, compound) :: rest => linked subject via (ofLinks compound rest)

/-- The compounds from the subject outward. -/
def compounds (c : Complex) : List Compound := c.subject :: c.links.map (·.2)

@[simp] theorem subject_ofLinks (subject : Compound) (links : List (Combinator × Compound)) :
    (ofLinks subject links).subject = subject := by
  cases links <;> rfl

@[simp] theorem links_ofLinks (subject : Compound) (links : List (Combinator × Compound)) :
    (ofLinks subject links).links = links := by
  induction links generalizing subject with
  | nil => rfl
  | cons l rest ih => simp [ofLinks, Complex.links, ih]

theorem ofLinks_subject_links : ∀ c : Complex, ofLinks c.subject c.links = c
  | only _ => rfl
  | linked compound via left => by
    show linked compound via (ofLinks left.subject left.links) = linked compound via left
    rw [ofLinks_subject_links left]

end Complex

/-! ### Equality -/

mutual

/-- Whether two simple selectors are the same. -/
def Simple.same : Simple → Simple → Bool
  | .type a, .type b => a == b
  | .universal, .universal => true
  | .id a, .id b => a == b
  | .ofClass a, .ofClass b => a == b
  | .attribute a, .attribute b => a == b
  | .scope, .scope => true
  | .structural a, .structural b => a == b
  | .has a, .has b => Complex.sameAll a b
  | .not a, .not b => Complex.sameAll a b
  | .contains e a, .contains f b => e == f && a == b
  | .finds e a, .finds f b => e == f && a == b
  | .ordinal a, .ordinal b => a == b
  | _, _ => false

/-- Whether two compounds are the same. -/
def Simple.sameAll : List Simple → List Simple → Bool
  | [], [] => true
  | a :: as, b :: bs => Simple.same a b && Simple.sameAll as bs
  | _, _ => false

/-- Whether two chains are the same. -/
def Complex.same : Complex → Complex → Bool
  | .only a, .only b => Simple.sameAll a b
  | .linked a v l, .linked b w m => Simple.sameAll a b && v == w && Complex.same l m
  | _, _ => false

/-- Whether two lists of chains are the same. -/
def Complex.sameAll : List Complex → List Complex → Bool
  | [], [] => true
  | a :: as, b :: bs => Complex.same a b && Complex.sameAll as bs
  | _, _ => false

end

mutual

theorem Simple.same_iff : ∀ a b : Simple, Simple.same a b = true ↔ a = b
  | .type _, b | .universal, b | .id _, b | .ofClass _, b | .attribute _, b | .scope, b
  | .structural _, b | .contains _ _, b | .finds _ _, b | .ordinal _, b => by
    cases b <;> simp [Simple.same]
  | .has l, b => by cases b <;> simp [Simple.same, Complex.sameAll_iff l]
  | .not l, b => by cases b <;> simp [Simple.same, Complex.sameAll_iff l]

theorem Simple.sameAll_iff : ∀ a b : List Simple, Simple.sameAll a b = true ↔ a = b
  | [], b => by cases b <;> simp [Simple.sameAll]
  | a :: as, b => by cases b <;> simp [Simple.sameAll, Simple.same_iff a, Simple.sameAll_iff as]

theorem Complex.same_iff : ∀ a b : Complex, Complex.same a b = true ↔ a = b
  | .only a, b => by cases b <;> simp [Complex.same, Simple.sameAll_iff a]
  | .linked a v l, b => by
    cases b <;> simp [Complex.same, Simple.sameAll_iff a, Complex.same_iff l, and_assoc]

theorem Complex.sameAll_iff : ∀ a b : List Complex, Complex.sameAll a b = true ↔ a = b
  | [], b => by cases b <;> simp [Complex.sameAll]
  | a :: as, b => by
    cases b <;> simp [Complex.sameAll, Complex.same_iff a, Complex.sameAll_iff as]

end

instance : DecidableEq Simple := fun a b => decidable_of_iff _ (Simple.same_iff a b)

instance : DecidableEq Complex := fun a b => decidable_of_iff _ (Complex.same_iff a b)

end MarkupQuery
