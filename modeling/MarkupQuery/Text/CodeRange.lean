/-!
# Ranges of code points

Properties of characters are given as tables of ranges, and simple case
mappings as tables of ranges that are moved as a whole.  This file holds the two
kinds of row and how a table is read.

* `CodeRange`, `inRanges` — membership in a union of ranges;
* `CaseRange.map?`, `mapThrough` — a mapping that moves each row by a constant;
* `CaseRange.source?` — the same row read backwards.
-/

namespace MarkupQuery.Text

/-- The code points from `first` to `last`, both included. -/
structure CodeRange where
  first : Nat
  last : Nat
  deriving DecidableEq, Repr

/-- Whether a character lies in the range. -/
def CodeRange.contains (r : CodeRange) (c : Char) : Bool :=
  r.first ≤ c.toNat && c.toNat ≤ r.last

/-- Whether a character lies in one of the ranges. -/
def inRanges (rs : List CodeRange) (c : Char) : Bool :=
  rs.any (·.contains c)

/-- A row of a case mapping: every `stride`-th code point from `first` to
`last`, mapped to the code point as far from `target` as it is from `first`. -/
structure CaseRange where
  first : Nat
  last : Nat
  stride : Nat
  target : Nat
  deriving DecidableEq, Repr

/-- Whether the row maps the code point `n`. -/
def CaseRange.covers (r : CaseRange) (n : Nat) : Bool :=
  r.first ≤ n && n ≤ r.last && (n - r.first) % r.stride == 0

/-- What the row maps a character to, if it maps it. -/
def CaseRange.map? (r : CaseRange) (c : Char) : Option Char :=
  if r.covers c.toNat then some (Char.ofNat (r.target + (c.toNat - r.first))) else none

/-- The character that the row maps to `c`, if there is one. -/
def CaseRange.source? (r : CaseRange) (c : Char) : Option Char :=
  if r.target ≤ c.toNat && r.covers (r.first + (c.toNat - r.target)) then
    some (Char.ofNat (r.first + (c.toNat - r.target)))
  else none

/-- The image of a character under a table; characters in no row are fixed. -/
def mapThrough (rs : List CaseRange) (c : Char) : Char :=
  (rs.findSome? (·.map? c)).getD c

end MarkupQuery.Text
