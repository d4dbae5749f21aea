import MarkupQuery.Regex.CharClass

/-!
# Regular expressions

Regular expressions over characters, with assertions that look at the two
characters around a place.  Searching puts marks on the expression itself: a
character class is marked while a match in progress has just taken its character
there.  So all matches are followed at once, and each character of the text costs
one walk through the expression.

* `Regex.acceptsEmpty` — whether nothing needs to be matched at a place;
* `Regex.isCompleted` — whether some match in progress may end at a place;
* `Regex.advance` — the marks after one more character;
* `Regex.search` — whether the expression matches somewhere in a text.
-/

namespace MarkupQuery

/-- A condition on a place in a text. -/
inductive Assertion where
  | textStart
  | textEnd
  | lineStart
  | lineEnd
  | wordBoundary
  | notWordBoundary
  | wordStart
  | wordEnd
  | wordStartHalf
  | wordEndHalf
  deriving DecidableEq, Repr

/-- Whether a character stands at a place and is a word character. -/
def isWordAt (c : Option Char) : Bool := c.any Text.isWordChar

/-- Whether the assertion holds between two characters, either of which is missing
at an end of the text. -/
def Assertion.holds (prev next : Option Char) : Assertion → Bool
  | textStart => prev.isNone
  | textEnd => next.isNone
  | lineStart => prev.isNone || prev == some '\n'
  | lineEnd => next.isNone || next == some '\n'
  | wordBoundary => isWordAt prev != isWordAt next
  | notWordBoundary => isWordAt prev == isWordAt next
  | wordStart => !isWordAt prev && isWordAt next
  | wordEnd => isWordAt prev && !isWordAt next
  | wordStartHalf => !isWordAt prev
  | wordEndHalf => !isWordAt next

/-- A regular expression. -/
inductive Regex where
  | empty
  /-- One character of a class.  The mark tells that a match has just taken it. -/
  | char (marked : Bool) (cls : CharClass)
  | assert (a : Assertion)
  | seq (a b : Regex)
  | either (a b : Regex)
  | star (a : Regex)
  deriving DecidableEq, Repr

namespace Regex

/-- The expression for one character of a class. -/
def ofClass (cls : CharClass) : Regex := char false cls

/-- The sequence of two expressions, of which an empty first one is left out. -/
def followedBy : Regex → Regex → Regex
  | empty, b => b
  | a, b => seq a b

/-- The expression exactly `n` times. -/
def times (a : Regex) : Nat → Regex
  | 0 => empty
  | 1 => a
  | n + 1 => seq a (a.times n)

/-- The expression at most `n` times. -/
def atMost (a : Regex) : Nat → Regex
  | 0 => empty
  | n + 1 => either empty (seq a (a.atMost n))

/-- The expression at least `least` times, and at most `most` times if there is
such a bound. -/
def between (a : Regex) (least : Nat) : Option Nat → Regex
  | none => (a.times least).followedBy (star a)
  | some most => (a.times least).followedBy (a.atMost (most - least))

/-- Whether the expression matches the empty text between two characters. -/
def acceptsEmpty (prev next : Option Char) : Regex → Bool
  | empty => true
  | char _ _ => false
  | assert a => a.holds prev next
  | seq a b => a.acceptsEmpty prev next && b.acceptsEmpty prev next
  | either a b => a.acceptsEmpty prev next || b.acceptsEmpty prev next
  | star _ => true

/-- Whether a match in progress may end between two characters: nothing more needs
to be taken after one of the marks. -/
def isCompleted (prev next : Option Char) : Regex → Bool
  | empty => false
  | char marked _ => marked
  | assert _ => false
  | seq a b =>
    (a.isCompleted prev next && b.acceptsEmpty prev next) || b.isCompleted prev next
  | either a b => a.isCompleted prev next || b.isCompleted prev next
  | star a => a.isCompleted prev next

/-- The marks after the character `c`.  Every match in progress goes on if it can,
and one more starts if the expression is `entered`. -/
def advance (prev : Option Char) (c : Char) (entered : Bool) : Regex → Regex
  | empty => empty
  | char _ cls => char (entered && cls.has c) cls
  | assert a => assert a
  | seq a b =>
    let passed :=
      (entered && a.acceptsEmpty prev (some c)) || a.isCompleted prev (some c)
    seq (a.advance prev c entered) (b.advance prev c passed)
  | either a b => either (a.advance prev c entered) (b.advance prev c entered)
  | star a => star (a.advance prev c (entered || a.isCompleted prev (some c)))

/-- Whether a match in progress, or one that starts at a later place, is completed
in the rest of the text. -/
def searchFrom (prev : Option Char) : Regex → List Char → Bool
  | r, [] => r.acceptsEmpty prev none || r.isCompleted prev none
  | r, c :: rest =>
    r.acceptsEmpty prev (some c) || r.isCompleted prev (some c) ||
      searchFrom (some c) (r.advance prev c true) rest

/-- Whether the expression matches somewhere in a text. -/
def search (r : Regex) (text : List Char) : Bool := r.searchFrom none text

end Regex

end MarkupQuery
