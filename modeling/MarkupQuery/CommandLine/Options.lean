/-!
# Command-line options

The arguments are read from left to right, and the first mistake counts.  After
`--` every argument is a selector.

* `Request.ofArgs` — what the arguments ask for.
-/

namespace MarkupQuery.CommandLine

/-- The options of a run. -/
structure Options where
  selector : String
  tree : Option String
  json : Option String
  scope : Option String
  config : Option String
  caseSensitiveValues : Bool
  count : Bool
  ast : Bool
  deriving DecidableEq, Repr

/-- What the arguments ask for. -/
inductive Request where
  | run (options : Options)
  | version
  | help
  /-- The arguments make no sense. -/
  | misuse
  deriving DecidableEq, Repr

/-- The options that take a value. -/
inductive ValueOption where
  | tree
  | json
  | scope
  | config
  deriving DecidableEq, Repr

/-- The options that are there or not. -/
inductive FlagOption where
  | caseSensitiveValues
  | count
  | ast
  deriving DecidableEq, Repr

/-- The option of a name, if it takes a value. -/
def ValueOption.ofName? : String → Option ValueOption
  | "tree" => some tree
  | "json" => some json
  | "scope" => some scope
  | "config" => some config
  | _ => none

/-- Whether the option names a file. -/
def ValueOption.isFile : ValueOption → Bool
  | tree | config => true
  | json | scope => false

/-- The option of a name, if it takes no value. -/
def FlagOption.ofName? : String → Option FlagOption
  | "case-sensitive-values" => some caseSensitiveValues
  | "count" => some count
  | "ast" => some ast
  | _ => none

/-- What was read of the arguments. -/
structure Seen where
  selector : Option String
  values : List (ValueOption × String)
  flags : List FlagOption

namespace Seen

/-- The value of an option. -/
def value? (s : Seen) (o : ValueOption) : Option String := s.values.lookup o

/-- Records the value of an option.  It may be given once, and a file has a name. -/
def setValue? (s : Seen) (o : ValueOption) (value : String) : Option Seen :=
  if (s.value? o).isSome || (o.isFile && value == "") then none
  else some { s with values := (o, value) :: s.values }

/-- Records a flag, which may be given once. -/
def setFlag? (s : Seen) (o : FlagOption) : Option Seen :=
  if s.flags.contains o then none else some { s with flags := o :: s.flags }

/-- Records the selector, of which there is one. -/
def setSelector? (s : Seen) (text : String) : Option Seen :=
  if s.selector.isSome then none else some { s with selector := some text }

/-- The request, once all arguments are read: there has to be a selector, and the
tree comes from one place only. -/
def finish (s : Seen) : Request :=
  match s.selector with
  | none => .misuse
  | some selector =>
    if (s.value? .tree).isSome && (s.value? .json).isSome then .misuse
    else
      .run
        { selector
          tree := s.value? .tree
          json := s.value? .json
          scope := s.value? .scope
          config := s.value? .config
          caseSensitiveValues := s.flags.contains .caseSensitiveValues
          count := s.flags.contains .count
          ast := s.flags.contains .ast }

end Seen

/-- How an argument reads where options are allowed. -/
inductive Argument where
  /-- The mark after which there are no more options. -/
  | separator
  /-- An option with its name and perhaps a value after an equals sign. -/
  | long (name : String) (value : Option String)
  /-- Options of one letter. -/
  | short (letters : List Char)
  | plain (text : String)

/-- How an argument reads. -/
def Argument.ofText (text : String) : Argument :=
  match text.toList with
  | ['-', '-'] => .separator
  | '-' :: '-' :: rest =>
    let name := rest.takeWhile (· != '=')
    match rest.dropWhile (· != '=') with
    | [] => .long (String.ofList name) none
    | _ :: value => .long (String.ofList name) (some (String.ofList value))
  | ['-'] => .plain text
  | '-' :: letters => .short letters
  | _ => .plain text

/-- Reads the arguments after `--`. -/
def readPlain (seen : Seen) : List String → Request
  | [] => seen.finish
  | text :: rest =>
    match seen.setSelector? text with
    | none => .misuse
    | some seen => readPlain seen rest

/-- Reads arguments. -/
def read (seen : Seen) : List String → Request
  | [] => seen.finish
  | text :: rest =>
    match Argument.ofText text with
    | .separator => readPlain seen rest
    | .plain text =>
      match seen.setSelector? text with
      | none => .misuse
      | some seen => read seen rest
    | .short letters =>
      match letters with
      | 'V' :: _ => .version
      | 'h' :: _ => .help
      | _ => .misuse
    | .long name none =>
      match ValueOption.ofName? name, FlagOption.ofName? name, rest with
      | some o, _, value :: rest =>
        match Argument.ofText value with
        | .plain value =>
          match seen.setValue? o value with
          | none => .misuse
          | some seen => read seen rest
        | _ => .misuse
      | none, some o, rest =>
        match seen.setFlag? o with
        | none => .misuse
        | some seen => read seen rest
      | _, _, _ => if name = "version" then .version else if name = "help" then .help else .misuse
    | .long name (some value) =>
      match ValueOption.ofName? name with
      | none => .misuse
      | some o =>
        match seen.setValue? o value with
        | none => .misuse
        | some seen => read seen rest

/-- What the arguments ask for. -/
def Request.ofArgs (args : List String) : Request := read ⟨none, [], []⟩ args

end MarkupQuery.CommandLine
