/-!
# JSON values

A value as it is written: the fields of an object keep their order and their
repetitions, and a number keeps its digits.
-/

namespace MarkupQuery

/-- A JSON value. -/
inductive Json where
  | null
  | bool (b : Bool)
  | number (digits : String)
  | string (s : String)
  | array (items : List Json)
  | object (fields : List (String × Json))
  deriving Inhabited

namespace Json

/-- All values given to a name in a list of fields, in order. -/
def valuesOf (name : String) (fields : List (String × Json)) : List Json :=
  (fields.filter (·.1 == name)).map (·.2)

end Json

end MarkupQuery
