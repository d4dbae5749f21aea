import MarkupQuery.Text.Blank
import MarkupQuery.Text.LetterCase

/-!
# Tags

What is known of an element by its tag name: whether it is a block, what it can
hold, how its text is treated.  A fixed registry knows the tags of hypertext; any
other name is a generic inline tag that can go anywhere and hold anything.

* `Tag.ofName` finds the tag of a name, after trimming and lower-casing it; a blank
  name has none;
* `Tag.isKnown` tells the registered tags from the generic ones.
-/

namespace MarkupQuery

/-- Block tags, which can hold blocks and inline content. -/
def blockNames : List String :=
  ["html", "head", "body", "frameset", "script", "noscript", "style", "meta", "link", "title",
   "frame", "noframes", "section", "nav", "aside", "hgroup", "header", "footer", "p", "h1", "h2",
   "h3", "h4", "h5", "h6", "ul", "ol", "pre", "div", "blockquote", "hr", "address", "figure",
   "figcaption", "form", "fieldset", "ins", "del", "s", "dl", "dt", "dd", "li", "table",
   "caption", "thead", "tfoot", "tbody", "colgroup", "col", "tr", "th", "td", "video", "audio",
   "canvas", "details", "menu", "plaintext", "template", "article", "main", "svg", "math"]

/-- Inline tags, which can hold inline content only. -/
def inlineNames : List String :=
  ["object", "base", "font", "tt", "i", "b", "u", "big", "small", "em", "strong", "dfn", "code",
   "samp", "kbd", "var", "cite", "abbr", "time", "acronym", "mark", "ruby", "rt", "rp", "a",
   "img", "br", "wbr", "map", "q", "sub", "sup", "bdo", "iframe", "embed", "span", "input",
   "select", "textarea", "label", "button", "optgroup", "option", "legend", "datalist", "keygen",
   "output", "progress", "meter", "area", "param", "source", "track", "summary", "command",
   "device", "basefont", "bgsound", "menuitem", "data", "bdi"]

/-- Tags that can hold nothing, such as an image. -/
def emptyNames : List String :=
  ["meta", "link", "base", "frame", "img", "br", "wbr", "embed", "hr", "input", "keygen", "col",
   "command", "device", "area", "basefont", "bgsound", "menuitem", "param", "source", "track"]

/-- Block tags that are nonetheless formatted inline. -/
def formatAsInlineNames : List String :=
  ["title", "a", "p", "h1", "h2", "h3", "h4", "h5", "h6", "pre", "address", "li", "th", "td",
   "script", "style", "ins", "del", "s"]

/-- Tags whose text keeps its white space. -/
def preserveWhitespaceNames : List String :=
  ["pre", "plaintext", "title", "textarea"]

/-- Controls that belong to a form. -/
def formListedNames : List String :=
  ["button", "fieldset", "input", "keygen", "object", "output", "select", "textarea"]

/-- Controls that are submitted with a form. -/
def formSubmittableNames : List String :=
  ["input", "keygen", "object", "select", "textarea"]

/-- A tag and its capabilities. -/
structure Tag where
  name : String
  block : Bool
  formatAsBlock : Bool
  canContainBlock : Bool
  canContainInline : Bool
  empty : Bool
  preserveWhitespace : Bool
  formListed : Bool
  formSubmittable : Bool
  deriving DecidableEq, Repr

/-- The reason why a name has no tag. -/
inductive TagError where
  /-- Nothing is left of the name after trimming. -/
  | emptyName
  deriving DecidableEq, Repr

/-- The wording of the error. -/
def TagError.message : TagError → String
  | .emptyName => "tag name must not be empty"

namespace Tag

/-- Whether a name, taken as it is, stands in the registry. -/
def isRegistered (name : String) : Bool :=
  inlineNames.contains name || blockNames.contains name

/-- The registry's entry for a name, taken as it is. -/
def registered? (name : String) : Option Tag :=
  if isRegistered name then
    let inline := inlineNames.contains name
    let empty := emptyNames.contains name
    some
      { name
        block := !inline
        formatAsBlock := !inline && !formatAsInlineNames.contains name
        canContainBlock := !inline && !empty
        canContainInline := !empty
        empty
        preserveWhitespace := preserveWhitespaceNames.contains name
        formListed := formListedNames.contains name
        formSubmittable := formSubmittableNames.contains name }
  else none

/-- The tag of a name that is not registered: inline, free to hold anything. -/
def generic (name : String) : Tag :=
  { name
    block := false
    formatAsBlock := true
    canContainBlock := true
    canContainInline := true
    empty := false
    preserveWhitespace := false
    formListed := false
    formSubmittable := false }

/-- The form under which names are registered: trimmed and in lower case.  A
blank name has none. -/
def normalized? (name : String) : Option String :=
  let name := Text.trimmed name
  if name = "" then none else some (Text.lowered name)

/-- The tag of a name.  The registry is asked for the name as it is first, then
for its normalized form. -/
def ofName (name : String) : Except TagError Tag :=
  match registered? name with
  | some tag => .ok tag
  | none =>
    match normalized? name with
    | none => .error .emptyName
    | some name => .ok ((registered? name).getD (generic name))

/-- Whether a name belongs to a registered tag. -/
def isKnownName (name : String) : Bool :=
  match normalized? name with
  | none => false
  | some name => isRegistered name

/-- Whether the tag is a registered one. -/
def isKnown (tag : Tag) : Bool := isRegistered tag.name

/-- Whether the tag is inline, the opposite of a block. -/
def inline (tag : Tag) : Bool := !tag.block

/-- Whether the tag holds raw data: it is not empty, but takes no inline content. -/
def data (tag : Tag) : Bool := !tag.canContainInline && !tag.empty

/-- Whether the tag is written as closing itself: just the empty tags are. -/
def selfClosing (tag : Tag) : Bool := tag.empty

end Tag

end MarkupQuery
