import MarkupQuery.CommandLine.Options
import MarkupQuery.Description.Json
import MarkupQuery.Regex.Engine
import MarkupQuery.Selector.Printer
import MarkupQuery.Selection

/-!
# The query program

What the program prints for its arguments and the files they name.  Matches go to
the output one a line, with a label and an excerpt of their text; warnings and the
error that ends a run go to the error stream.

* `Options.run` — a run with given options;
* `report` — the whole of a call of the program.
-/

namespace MarkupQuery.CommandLine

/-- Why a run ends without its result. -/
inductive Failure where
  | unreadableConfig (file : String)
  | invalidConfig (file : String)
  | invalidSelector (text : String) (e : SelectorError)
  | noTree
  | unreadableTree (file : String)
  | invalidTree (e : TreeError)
  | invalidScope (text : String) (e : SelectorError)
  | unmatchedScope (text : String)

namespace Failure

/-- What the program could not do. -/
def context : Failure → String
  | unreadableConfig file => s!"cannot read config {file}"
  | invalidConfig file => s!"invalid config {file}"
  | invalidSelector text _ => s!"cannot parse selector `{text}`"
  | noTree => "a tree is required: pass --tree FILE or --json TEXT"
  | unreadableTree file => s!"cannot read tree {file}"
  | invalidTree _ => "cannot build tree"
  | invalidScope text _ => s!"cannot parse scope selector `{text}`"
  | unmatchedScope text => s!"no element matches scope `{text}`"

/-- The error behind it, if there is one. -/
def cause? : Failure → Option String
  | unreadableConfig _ | unreadableTree _ => some "the file cannot be read"
  | invalidConfig _ => some "the configuration is not valid"
  | invalidSelector _ e | invalidScope _ e => some e.message
  | invalidTree e => some e.message
  | noTree | unmatchedScope _ => none

/-- A text with each of its lines moved to the right. -/
def indented (text : String) : String :=
  "    " ++ String.ofList (text.toList.flatMap fun c =>
    if c = '\n' then ['\n', ' ', ' ', ' ', ' '] else [c])

/-- The report of the failure. -/
def message (f : Failure) : String :=
  match f.cause? with
  | none => s!"Error: {f.context}\n"
  | some cause => s!"Error: {f.context}\n\nCaused by:\n{indented cause}\n"

end Failure

/-! ### Colours -/

/-- A label, in bold cyan. -/
def emphasized (text : String) : String := "\x1b[1m\x1b[36m" ++ text ++ "\x1b[39m\x1b[0m"

/-- Text that is less important. -/
def dimmed (text : String) : String := "\x1b[2m" ++ text ++ "\x1b[0m"

/-- A warning as it is printed, in yellow. -/
def warningLine (w : Warning) : String :=
  "\x1b[33m[thicket " ++ w.component ++ "] ⚠ " ++ w.message ++ "\x1b[39m\n"

/-! ### Matches -/

/-- The greatest number of characters of an excerpt. -/
def excerptLength : Nat := 60

/-- The start of a text, with an ellipsis if there is more of it. -/
def excerpt (text : String) : String :=
  let cs := text.toList
  if cs.length ≤ excerptLength then text
  else String.ofList (cs.take excerptLength ++ ['…'])

/-- An element's tag name with its identifier and classes. -/
def label (e : Element) : String :=
  e.tagName ++ (e.id?.map ("#" ++ ·)).getD "" ++ String.join (e.classWords.map ("." ++ ·))

/-- The line for a match. -/
def matchLine (t : Tree) (id : NodeId) : String :=
  match t.element? id with
  | none => ""
  | some e => emphasized (label e) ++ " " ++ dimmed (excerpt (t.text id)) ++ "\n"

/-! ### Runs -/

/-- The parser that options ask for.  `files` gives the contents of files. -/
def Options.parser (o : Options) (files : String → Option String) : Except Failure Parser := do
  let config ←
    match o.config with
    | none => pure Config.standard
    | some file =>
      match files file with
      | none => .error (.unreadableConfig file)
      | some text =>
        match Config.ofText? text with
        | none => .error (.invalidConfig file)
        | some config => pure config
  let config :=
    if o.caseSensitiveValues then { config with attributeValues := .sensitive } else config
  return ⟨config, .regex⟩

/-- The text that describes the tree to be queried. -/
def Options.treeText (o : Options) (files : String → Option String) : Except Failure String :=
  match o.tree, o.json with
  | some file, _ =>
    match files file with
    | none => .error (.unreadableTree file)
    | some text => .ok text
  | none, some text => .ok text
  | none, none => .error .noTree

/-- The node below which the query runs: the document, or the first element that
the scope selector finds. -/
def Options.scopeRoot (o : Options) (parser : Parser) (t : Tree) : Except Failure NodeId :=
  match o.scope with
  | none => .ok Tree.root
  | some text =>
    match t.query parser Tree.root text with
    | .error e => .error (.invalidScope text e)
    | .ok found =>
      match found.first? with
      | none => .error (.unmatchedScope text)
      | some id => .ok id

/-- What is printed for a selection: its size, or a line for each match and a
warning if there is none. -/
def Options.present (o : Options) (log : WarningLog) (t : Tree) (list : SelectorList)
    (found : Selection) : WarningLog × String :=
  if o.count then (log, s!"{found.size}\n")
  else if found.isEmpty then
    ((log.warn ⟨"CLI", s!"no element matches `{printList list}`"⟩).1, "")
  else (log, String.join (found.ids.map (matchLine t)))

/-- A run: the warnings given, and the output or the reason why there is none. -/
def Options.run (o : Options) (files : String → Option String) :
    WarningLog × Except Failure String :=
  let prepared : Except Failure (Parser × SelectorList) := do
    let parser ← o.parser files
    match parser.parse o.selector with
    | .error e => .error (.invalidSelector o.selector e)
    | .ok list => return (parser, list)
  match prepared with
  | .error f => (.empty, .error f)
  | .ok (parser, list) =>
    if o.ast then (.empty, .ok (printList list ++ "\n"))
    else
      match o.treeText files with
      | .error f => (.empty, .error f)
      | .ok text =>
        match Tree.load .empty text with
        | (log, .error e) => (log, .error (.invalidTree e))
        | (log, .ok t) =>
          match o.scopeRoot parser t with
          | .error f => (log, .error f)
          | .ok scope =>
            let (log, output) := o.present log t list (t.select parser.engine scope list)
            (log, .ok output)

/-- What a call of the program leaves behind. -/
structure Report where
  code : Nat
  output : String
  errors : String

/-- The line that tells which program this is. -/
def versionLine : String := "thicket 0.1.0\n"

/-- How the program is called. -/
def usageLine : String := "Usage: thicket [OPTIONS] <SELECTOR>\n"

/-- The report of a run. -/
def reportOf (outcome : WarningLog × Except Failure String) : Report :=
  let warnings := String.join (outcome.1.printed.map warningLine)
  match outcome.2 with
  | .ok output => ⟨0, output, warnings⟩
  | .error f => ⟨1, "", warnings ++ f.message⟩

/-- The report of a call of the program. -/
def report (args : List String) (files : String → Option String) : Report :=
  match Request.ofArgs args with
  | .version => ⟨0, versionLine, ""⟩
  | .help => ⟨0, usageLine, ""⟩
  | .misuse => ⟨2, "", usageLine⟩
  | .run options => reportOf (options.run files)

/-- The files that a call of the program reads. -/
def filesOf (args : List String) : List String :=
  match Request.ofArgs args with
  | .run options => options.config.toList ++ options.tree.toList
  | _ => []

end MarkupQuery.CommandLine
