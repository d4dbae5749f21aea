import MarkupQuery.Json.Basic

/-!
# Reading JSON

A strict reader: no comments, no trailing commas, no control characters inside
strings, and blanks are the four of JSON only.  A value is read from the start of
a text and what follows it is handed back, so that it is up to the caller
whether anything may follow.

* `Json.read?` reads a value; arrays and objects may be nested `maxDepth` deep;
* `Json.readObject?` reads an object of which only some fields are of interest:
  the others are checked for their shape alone, at any depth.
-/

namespace MarkupQuery.Json

/-- The greatest number of arrays and objects that may be open at once. -/
def maxDepth : Nat := 127

/-- How much care is taken of a value: a kept one must have a meaning, a skipped
one only the right shape. -/
inductive Care where
  | kept
  | skipped
  deriving DecidableEq

/-- The blanks between the tokens of JSON. -/
def isSpace (c : Char) : Bool := c == ' ' || c == '\n' || c == '\t' || c == '\r'

/-- The text from its first character that is no blank. -/
def skipSpace (cs : List Char) : List Char := cs.dropWhile isSpace

/-- The value of a hexadecimal digit. -/
def hexDigit? (c : Char) : Option Nat :=
  if '0' ≤ c ∧ c ≤ '9' then some (c.toNat - '0'.toNat)
  else if 'a' ≤ c ∧ c ≤ 'f' then some (c.toNat - 'a'.toNat + 10)
  else if 'A' ≤ c ∧ c ≤ 'F' then some (c.toNat - 'A'.toNat + 10)
  else none

/-- The number written by four hexadecimal digits. -/
def hexUnit? (a b c d : Char) : Option Nat := do
  return (((← hexDigit? a) * 16 + (← hexDigit? b)) * 16 + (← hexDigit? c)) * 16 + (← hexDigit? d)

/-- The character that an escape of one letter stands for. -/
def escaped? : Char → Option Char
  | '"' => some '"'
  | '\\' => some '\\'
  | '/' => some '/'
  | 'b' => some '\x08'
  | 'f' => some '\x0c'
  | 'n' => some '\n'
  | 'r' => some '\r'
  | 't' => some '\t'
  | _ => none

/-- Whether a UTF-16 unit is the first half of a surrogate pair. -/
def isHighSurrogate (u : Nat) : Bool := 0xD800 ≤ u && u < 0xDC00

/-- Whether a UTF-16 unit is the second half of a surrogate pair. -/
def isLowSurrogate (u : Nat) : Bool := 0xDC00 ≤ u && u < 0xE000

/-- Reads a string after its opening quote; gives the content and what follows
the closing quote.  Half a surrogate pair has no meaning. -/
def stringBody? (care : Care) : List Char → Option (List Char × List Char)
  | [] => none
  | '"' :: rest => some ([], rest)
  | '\\' :: 'u' :: a :: b :: c :: d :: rest => do
    let unit ← hexUnit? a b c d
    if isHighSurrogate unit && care == .kept then
      match rest with
      | '\\' :: 'u' :: a :: b :: c :: d :: rest =>
        let low ← hexUnit? a b c d
        if isLowSurrogate low then
          let (content, rest) ← stringBody? care rest
          some (Char.ofNat (0x10000 + (unit - 0xD800) * 0x400 + (low - 0xDC00)) :: content, rest)
        else none
      | _ => none
    else if isLowSurrogate unit && care == .kept then none
    else
      let (content, rest) ← stringBody? care rest
      some (Char.ofNat unit :: content, rest)
  | '\\' :: e :: rest => do
    let c ← escaped? e
    let (content, rest) ← stringBody? care rest
    some (c :: content, rest)
  | c :: rest => do
    if c.toNat < 0x20 || c == '\\' then none
    let (content, rest) ← stringBody? care rest
    some (c :: content, rest)

/-- The number written by decimal digits. -/
def ofDigits (ds : List Char) : Nat :=
  ds.foldl (fun n d => n * 10 + (d.toNat - '0'.toNat)) 0

/-- Whether `significand · 10 ^ exponent` is below the numbers that round to
infinity in double precision. -/
def isFinite (significand : Nat) (exponent : Int) : Bool :=
  let magnitude := (Nat.toDigits 10 significand).length + exponent
  significand == 0 || magnitude < 309 ||
    (magnitude == 309 &&
      significand * Nat.pow 10 exponent.toNat / Nat.pow 10 (-exponent).toNat <
        Nat.pow 2 1024 - Nat.pow 2 970)

/-- Splits off the digits at the start of a text, of which there must be one. -/
def digits? (cs : List Char) : Option (List Char × List Char) :=
  let ds := cs.takeWhile Char.isDigit
  if ds = [] then none else some (ds, cs.dropWhile Char.isDigit)

/-- Reads the fraction of a number, if it has one: the digits after the point. -/
def fraction? : List Char → Option (List Char × List Char)
  | '.' :: rest => digits? rest
  | cs => some ([], cs)

/-- Reads the exponent of a number, if it has one. -/
def exponent? (cs : List Char) : Option (Int × List Char) :=
  let signed (negative : Bool) (rest : List Char) : Option (Int × List Char) := do
    let (ds, rest) ← digits? rest
    return (if negative then -(ofDigits ds : Int) else ofDigits ds, rest)
  match cs with
  | e :: rest =>
    if e == 'e' || e == 'E' then
      match rest with
      | '+' :: rest => signed false rest
      | '-' :: rest => signed true rest
      | rest => signed false rest
    else some (0, cs)
  | [] => some (0, [])

/-- Reads a number.  Its integer part is `0` or starts with another digit, and a
kept number is finite. -/
def number? (care : Care) (cs : List Char) : Option (Json × List Char) := do
  let unsigned := match cs with
    | '-' :: rest => rest
    | _ => cs
  let (whole, rest) ← digits? unsigned
  if whole.length ≠ 1 ∧ whole.head? = some '0' then none
  let (fraction, rest) ← fraction? rest
  let (exponent, rest) ← exponent? rest
  if care = .kept ∧
      !isFinite (ofDigits (whole ++ fraction)) (exponent - fraction.length) then none
  return (.number (String.ofList (cs.take (cs.length - rest.length))), rest)

mutual

/-- Reads a value.  `room` is one more than the number of arrays and objects that
may still be opened around a kept value; `fuel` bounds the number of steps. -/
def value? (care : Care) : Nat → Nat → List Char → Option (Json × List Char)
  | 0, _, _ => none
  | fuel + 1, room, cs =>
    match skipSpace cs with
    | 'n' :: 'u' :: 'l' :: 'l' :: rest => some (.null, rest)
    | 't' :: 'r' :: 'u' :: 'e' :: rest => some (.bool true, rest)
    | 'f' :: 'a' :: 'l' :: 's' :: 'e' :: rest => some (.bool false, rest)
    | '"' :: rest => do
      let (content, rest) ← stringBody? care rest
      some (.string (String.ofList content), rest)
    | '[' :: rest =>
      if room ≤ 1 && care == .kept then none
      else
        match skipSpace rest with
        | ']' :: rest => some (.array [], rest)
        | rest => do
          let (items, rest) ← items? care fuel (room - 1) rest
          some (.array items, rest)
    | '{' :: rest =>
      if room ≤ 1 && care == .kept then none
      else do
        let (fields, rest) ← fields? (fun _ => care) care fuel (room - 1) rest
        some (.object fields, rest)
    | cs => number? care cs

/-- Reads the items of an array, of which there is one at least, and its closing
bracket. -/
def items? (care : Care) : Nat → Nat → List Char → Option (List Json × List Char)
  | 0, _, _ => none
  | fuel + 1, room, cs => do
    let (item, rest) ← value? care fuel room cs
    match skipSpace rest with
    | ',' :: rest =>
      let (items, rest) ← items? care fuel room rest
      some (item :: items, rest)
    | ']' :: rest => some ([item], rest)
    | _ => none

/-- Reads the fields of an object after its opening brace, with its closing
brace.  Names are read with the care `names`, and values with the care that their
names ask for. -/
def fields? (cares : String → Care) (names : Care) :
    Nat → Nat → List Char → Option (List (String × Json) × List Char)
  | 0, _, _ => none
  | fuel + 1, room, cs =>
    match skipSpace cs with
    | '\x7d' :: rest => some ([], rest)
    | rest => moreFields? cares names fuel room rest

/-- Reads the fields of an object from the name of one of them. -/
def moreFields? (cares : String → Care) (names : Care) :
    Nat → Nat → List Char → Option (List (String × Json) × List Char)
  | 0, _, _ => none
  | fuel + 1, room, cs =>
    match skipSpace cs with
    | '"' :: rest => do
      let (content, rest) ← stringBody? names rest
      let name := String.ofList content
      match skipSpace rest with
      | ':' :: rest =>
        let (value, rest) ← value? (cares name) fuel room rest
        match skipSpace rest with
        | ',' :: rest =>
          let (fields, rest) ← moreFields? cares names fuel room rest
          some ((name, value) :: fields, rest)
        | '\x7d' :: rest => some ([(name, value)], rest)
        | _ => none
      | _ => none
    | _ => none

end

/-- Reads a value at the start of a text; gives it with what follows. -/
def read? (cs : List Char) : Option (Json × List Char) :=
  value? .kept (3 * cs.length + 3) (maxDepth + 1) cs

/-- Reads an object at the start of a text, skipping the values of the fields
that are not to be kept. -/
def readObject? (keeps : String → Bool) (cs : List Char) :
    Option (List (String × Json) × List Char) :=
  match skipSpace cs with
  | '{' :: rest =>
    fields? (fun name => if keeps name then .kept else .skipped) .kept (3 * cs.length + 3)
      maxDepth rest
  | _ => none

/-- Whether a text holds nothing more. -/
def isFinished (cs : List Char) : Bool := skipSpace cs == []

end MarkupQuery.Json
