import MarkupQuery.Tag

/-!
# Elements

An element is a tag name, kept as written, with its attributes.

* `Attributes` holds each name once: setting a name again replaces its value;
* `Attributes.find?` prefers the exact spelling of a name and otherwise ignores
  ASCII case.

The entries stand in the order in which they are gone through.  This order is no part of
what the attributes are: two elements with the same attributes may have them in different
orders, and two trees built from the same names and values may differ in it.
-/

namespace MarkupQuery

/-- Attribute names with their values, no name twice, in the order in which they are gone
through. -/
structure Attributes where
  entries : List (String × String)
  distinct : (entries.map (·.1)).Nodup
  deriving DecidableEq

namespace Attributes

/-- No attributes. -/
def empty : Attributes := ⟨[], List.nodup_nil⟩

instance : Inhabited Attributes := ⟨empty⟩

/-- Gives `name` the value in a list of entries; a new name goes to the end. -/
def setEntry (entries : List (String × String)) (name value : String) :
    List (String × String) :=
  if entries.any (·.1 == name) then
    entries.map fun e => if e.1 == name then (name, value) else e
  else entries ++ [(name, value)]

/-- Setting an entry adds its name to the names, if it is not there yet. -/
theorem map_fst_setEntry (entries : List (String × String)) (name value : String) :
    (setEntry entries name value).map (·.1) =
      if name ∈ entries.map (·.1) then entries.map (·.1)
      else entries.map (·.1) ++ [name] := by
  by_cases h : entries.any (·.1 == name)
  · have hm : name ∈ entries.map (·.1) := by
      obtain ⟨e, he, hn⟩ := List.any_eq_true.1 h
      exact List.mem_map.2 ⟨e, he, by simpa using hn⟩
    rw [setEntry, if_pos h, if_pos hm, List.map_map]
    refine List.map_congr_left fun e _ => ?_
    by_cases hn : e.1 = name <;> simp [hn]
  · have hm : name ∉ entries.map (·.1) := by
      intro hm
      obtain ⟨e, he, hn⟩ := List.mem_map.1 hm
      exact h (List.any_eq_true.2 ⟨e, he, by simpa using hn⟩)
    rw [setEntry, if_neg h, if_neg hm]
    simp

/-- Setting an entry keeps names distinct. -/
theorem nodup_setEntry {entries : List (String × String)}
    (h : (entries.map (·.1)).Nodup) (name value : String) :
    ((setEntry entries name value).map (·.1)).Nodup := by
  rw [map_fst_setEntry]
  split
  · exact h
  · next hm =>
    refine List.nodup_append.2 ⟨h, by simp, ?_⟩
    intro a ha b hb hab
    simp only [List.mem_singleton] at hb
    exact hm (hb ▸ hab ▸ ha)

/-- Gives a name a value, in place of the one it had. -/
def set (a : Attributes) (name value : String) : Attributes :=
  ⟨setEntry a.entries name value, nodup_setEntry a.distinct name value⟩

/-- The attributes of a list of pairs; of a repeated name the last value counts. -/
def ofList (pairs : List (String × String)) : Attributes :=
  pairs.foldl (fun a p => a.set p.1 p.2) empty

/-- The value of an attribute: that of the exact name, or else of the first one gone
through that differs from it in ASCII case only. -/
def find? (a : Attributes) (name : String) : Option String :=
  match a.entries.find? (·.1 == name) with
  | some e => some e.2
  | none => (a.entries.find? fun e => Text.sameAsciiCaseless e.1 name).map (·.2)

end Attributes

/-- An element: its tag name as written and its attributes. -/
structure Element where
  tagName : String
  attributes : Attributes
  deriving DecidableEq

instance : Inhabited Element := ⟨⟨"", .empty⟩⟩

namespace Element

/-- The value of an attribute, ignoring the ASCII case of its name. -/
def attribute? (e : Element) (name : String) : Option String := e.attributes.find? name

/-- Whether the element has an attribute, ignoring the ASCII case of its name. -/
def hasAttribute (e : Element) (name : String) : Bool := (e.attribute? name).isSome

/-- The element's identifier. -/
def id? (e : Element) : Option String := e.attribute? "id"

/-- The words of the `class` attribute, in the order written. -/
def classWords (e : Element) : List String :=
  match e.attribute? "class" with
  | some list => Text.words list
  | none => []

/-- The classes of the element, each once. -/
def classes (e : Element) : List String := e.classWords.eraseDups

/-- Whether one of the element's classes is `name`, ignoring ASCII case. -/
def hasClass (e : Element) (name : String) : Bool :=
  e.classWords.any (Text.sameAsciiCaseless · name)

/-- The tag of the element, unless its name is blank. -/
def tag? (e : Element) : Option Tag := (Tag.ofName e.tagName).toOption

/-- Whether the tag name is `name`, ignoring ASCII case. -/
def isNamed (e : Element) (name : String) : Bool := Text.sameAsciiCaseless e.tagName name

/-- Whether the element's tag is a block. -/
def isBlock (e : Element) : Bool := e.tag?.any (·.block)

/-- Whether text in the element keeps its white space. -/
def preservesWhitespace (e : Element) : Bool := e.tag?.any (·.preserveWhitespace)

end Element

end MarkupQuery
