import MarkupQuery.Text.Blank
import MarkupQuery.Text.LetterCase
import MarkupQuery.Text.WordTable

/-!
# Character classes

Sets of characters, written down as they are put together.  Membership follows
the way a class is built, so that no class has to be spelled out in ranges.
-/

namespace MarkupQuery

/-- A set of characters. -/
inductive CharClass where
  | nothing
  | range (first last : Char)
  /-- Decimal digits of any script. -/
  | digit
  /-- Word characters of any script. -/
  | word
  | blank
  | either (a b : CharClass)
  | both (a b : CharClass)
  | complement (a : CharClass)
  /-- The characters that caseless comparison takes for one of the class. -/
  | caseless (a : CharClass)
  deriving DecidableEq, Repr

namespace CharClass

/-- Whether a character belongs to the class. -/
def has : CharClass → Char → Bool
  | nothing, _ => false
  | range first last, c => first.toNat ≤ c.toNat && c.toNat ≤ last.toNat
  | digit, c => Text.isDigit c
  | word, c => Text.isWordChar c
  | blank, c => Text.isBlank c
  | either a b, c => a.has c || b.has c
  | both a b, c => a.has c && b.has c
  | complement a, c => !a.has c
  | caseless a, c => (Text.caseVariants c).any a.has

/-- The class of one character. -/
def single (c : Char) : CharClass := range c c

/-- The members of `a` that are not in `b`. -/
def without (a b : CharClass) : CharClass := both a (complement b)

/-- The members of just one of two classes. -/
def oneOf (a b : CharClass) : CharClass := either (a.without b) (b.without a)

/-- The union of some ranges. -/
def ofRanges (ranges : List (Char × Char)) : CharClass :=
  ranges.foldr (fun r rest => either (range r.1 r.2) rest) nothing

end CharClass

end MarkupQuery
