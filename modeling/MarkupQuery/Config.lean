import MarkupQuery.Json.Reader
import MarkupQuery.Text.LetterCase
import MarkupQuery.Text.Blank

/-!
# Case policies

Whether a comparison distinguishes capitals, and the configuration that says so
for attribute values and for patterns.

* `Config.ofText?` reads a configuration from JSON text, where absent fields keep
  their defaults.
-/

namespace MarkupQuery

/-- Whether a comparison distinguishes upper and lower case. -/
inductive CaseSensitivity where
  | sensitive
  | insensitive
  deriving DecidableEq, Repr, Inhabited

namespace CaseSensitivity

/-- The policy's name. -/
def name : CaseSensitivity → String
  | sensitive => "sensitive"
  | insensitive => "insensitive"

/-- The letter that asks for the policy after an attribute value. -/
def flag : CaseSensitivity → Char
  | sensitive => 's'
  | insensitive => 'i'

/-- The policy that a letter asks for. -/
def ofFlag? (c : Char) : Option CaseSensitivity :=
  if c == 's' || c == 'S' then some sensitive
  else if c == 'i' || c == 'I' then some insensitive
  else none

/-- The policy of a name, in any ASCII case. -/
def ofName? (name : String) : Option CaseSensitivity :=
  [sensitive, insensitive].find? fun p => Text.sameAsciiCaseless p.name name

/-- Brings a text into the form in which it is compared. -/
def fold (policy : CaseSensitivity) (s : String) : String :=
  match policy with
  | sensitive => s
  | insensitive => Text.lowered s

/-- The policy that a JSON value names: exactly, and perhaps as the only field of
an object, with nothing in it. -/
def ofJson? : Json → Option CaseSensitivity
  | .string s => exactly? s
  | .object [(s, .null)] => exactly? s
  | _ => none
where
  /-- The policy of exactly this name. -/
  exactly? (s : String) : Option CaseSensitivity :=
    [sensitive, insensitive].find? fun p => p.name == s

end CaseSensitivity

/-- The case policies used where a selector does not give its own. -/
structure Config where
  /-- For attribute values without a flag. -/
  attributeValues : CaseSensitivity
  /-- For patterns. -/
  patterns : CaseSensitivity
  deriving DecidableEq, Repr

namespace Config

/-- Attribute values are compared without regard to case, patterns with it. -/
def standard : Config := ⟨.insensitive, .sensitive⟩

instance : Inhabited Config := ⟨standard⟩

/-- A policy that may be given at most once, or else is the standard one. -/
def single? (standard : CaseSensitivity) : List Json → Option CaseSensitivity
  | [] => some standard
  | [value] => CaseSensitivity.ofJson? value
  | _ => none

/-- The names of the two fields. -/
def fieldNames : List String := ["attribute_values", "patterns"]

/-- The configuration given by the fields of an object; other fields do not
matter. -/
def ofFields? (fields : List (String × Json)) : Option Config := do
  let attributeValues ←
    single? standard.attributeValues (Json.valuesOf "attribute_values" fields)
  let patterns ← single? standard.patterns (Json.valuesOf "patterns" fields)
  return ⟨attributeValues, patterns⟩

/-- The configuration given by a list of at most two policies. -/
def ofItems? (items : List Json) : Option Config := do
  if items.length > 2 then none
  let attributeValues ← single? standard.attributeValues (items.take 1)
  let patterns ← single? standard.patterns (items.drop 1)
  return ⟨attributeValues, patterns⟩

/-- Reads a configuration from JSON text. -/
def ofText? (text : String) : Option Config := do
  let cs := text.toList
  let (config, rest) ←
    match Json.readObject? fieldNames.contains cs with
    | some (fields, rest) => (ofFields? fields).map (·, rest)
    | none =>
      match Json.read? cs with
      | some (.array items, rest) => (ofItems? items).map (·, rest)
      | _ => none
  if Json.isFinished rest then some config else none

end Config

end MarkupQuery
