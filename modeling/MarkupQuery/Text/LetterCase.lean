import MarkupQuery.Text.CaseTable

/-!
# Letter case

Full lower-casing of text, and comparison of names without regard to ASCII
case.

* `lower` is context sensitive in one place only: a capital sigma at the end of
  a word becomes the final form of the letter;
* `caseVariants` lists the characters that caseless comparison takes for the
  same one.
-/

namespace MarkupQuery.Text

/-- The lower-case form of one character, away from any context. -/
def lowerChar (c : Char) : List Char :=
  if c = '\u0130' then ['i', '\u0307'] else [mapThrough lowerRanges c]

/-- Whether the first character that is not ignorable for case is a cased one. -/
def meetsCased (cs : List Char) : Bool :=
  match cs.dropWhile (inRanges caseIgnorableRanges) with
  | [] => false
  | c :: _ => inRanges casedRanges c

/-- Lower-cases a text, `before` being what stands before it, last character
first.  A capital sigma is final when a cased letter comes before it and none
after it. -/
def lowerFrom (before : List Char) : List Char → List Char
  | [] => []
  | c :: rest =>
    (if c = 'Σ' then
      [if meetsCased before && !meetsCased rest then 'ς' else 'σ']
    else lowerChar c) ++ lowerFrom (c :: before) rest

/-- The lower-case form of a text. -/
def lower (cs : List Char) : List Char := lowerFrom [] cs

/-- The lower-case form of a string. -/
def lowered (s : String) : String := String.ofList (lower s.toList)

/-- The string with its ASCII capitals in lower case and all else unchanged. -/
def asciiLowered (s : String) : String := String.ofList (s.toList.map Char.toLower)

/-- Whether two strings differ at most in the case of ASCII letters. -/
def sameAsciiCaseless (a b : String) : Bool := asciiLowered a == asciiLowered b

/-- A character, and every other one with the same simple case folding. -/
def caseVariants (c : Char) : List Char :=
  let folded := mapThrough foldRanges c
  folded :: foldRanges.filterMap (·.source? folded)

end MarkupQuery.Text
