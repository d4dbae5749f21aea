import MarkupQuery.Description.Basic
import MarkupQuery.Json.Reader

/-!
# Descriptions in JSON

A text node is a string, a comment an object with a string `comment`, an element
an object with a string `tag` and perhaps `attrs` and `children`.  Other fields
do not matter, a list is no node, and an object that could be both is a comment.

* `Description.ofJson?`, `Description.toJson` read and write one node;
* `Description.document?` reads a node or a list of nodes;
* `Tree.load` builds a tree from JSON text.
-/

namespace MarkupQuery

namespace Description

/-- The comment that an object is: it has the field `comment` once, with a string. -/
def commentOf? (fields : List (String × Json)) : Option String :=
  match Json.valuesOf "comment" fields with
  | [.string content] => some content
  | _ => none

/-- The tag name of an object that is an element. -/
def tagOf? (fields : List (String × Json)) : Option String :=
  match Json.valuesOf "tag" fields with
  | [.string tag] => some tag
  | _ => none

/-- A field of an object as an attribute: its value has to be a string. -/
def attribute? : String × Json → Option (String × String)
  | (name, .string value) => some (name, value)
  | _ => none

/-- The attributes of an object that is an element: none if there is no `attrs`. -/
def attributesOf? (fields : List (String × Json)) : Option Attributes :=
  match Json.valuesOf "attrs" fields with
  | [] => some .empty
  | [.object pairs] => (pairs.mapM attribute?).map Attributes.ofList
  | _ => none

mutual

/-- The node that a value describes. -/
def ofJson? : Json → Option Description
  | .string content => some (.text content)
  | .object fields =>
    match commentOf? fields with
    | some content => some (.comment content)
    | none =>
      match tagOf? fields, attributesOf? fields, childLists fields with
      | some tag, some attributes, [] => some (.element tag attributes [])
      | some tag, some attributes, [some children] => some (.element tag attributes children)
      | _, _, _ => none
  | _ => none

/-- The nodes that a list of values describes. -/
def ofItems? : List Json → Option (List Description)
  | [] => some []
  | item :: rest =>
    match ofJson? item, ofItems? rest with
    | some d, some ds => some (d :: ds)
    | _, _ => none

/-- What each field `children` of an object describes. -/
def childLists : List (String × Json) → List (Option (List Description))
  | [] => []
  | (name, .array items) :: rest =>
    if name = "children" then ofItems? items :: childLists rest else childLists rest
  | (name, _) :: rest =>
    if name = "children" then none :: childLists rest else childLists rest

end

/-- The nodes that a value describes as a whole document. -/
def document? : Json → Option (List Description)
  | .array items => ofItems? items
  | value => (ofJson? value).map ([·])

mutual

/-- The value that describes a node; empty parts of an element are left out. -/
def toJson : Description → Json
  | .text content => .string content
  | .comment content => .object [("comment", .string content)]
  | .element tag attributes children =>
    .object <| ("tag", .string tag) ::
      ((if attributes.entries = [] then []
        else [("attrs", .object (attributes.entries.map fun e => (e.1, .string e.2)))]) ++
      (if children.isEmpty then [] else [("children", .array (toItems children))]))

/-- The values that describe nodes. -/
def toItems : List Description → List Json
  | [] => []
  | d :: rest => toJson d :: toItems rest

end

/-- Reads a whole JSON text as what `decode` makes of its value. -/
def ofText {α : Type} (expected : Shape) (decode : Json → Option α) (text : String) :
    Except TreeError α :=
  match Json.read? text.toList with
  | none => .error .notJson
  | some (value, rest) =>
    match decode value with
    | none => .error (.mismatch expected)
    | some a => if Json.isFinished rest then .ok a else .error .notJson

/-- Reads the description of a single node from JSON text. -/
def nodeOfText (text : String) : Except TreeError Description := ofText .node ofJson? text

/-- Reads the description of a document from JSON text. -/
def documentOfText (text : String) : Except TreeError (List Description) :=
  ofText .document document? text

end Description

/-- Builds the tree that a JSON text describes. -/
def Tree.load (log : WarningLog) (text : String) : WarningLog × Except TreeError Tree :=
  match Description.documentOfText text with
  | .error e => (log, .error e)
  | .ok nodes => Tree.build log nodes

end MarkupQuery
