import MarkupQuery.Json.Reader
import MarkupQuery.Regex.Ast

/-!
# Reading regular expressions

Patterns are read from their text.  Repetitions may be stacked; look-around,
references to groups and named sets of characters are not supported.

* `Regex.ofText` reads a pattern with the flags it starts from.
-/

namespace MarkupQuery

/-- The ways in which a text is no pattern. -/
inductive RegexError where
  | unclosedGroup
  | unopenedGroup
  | unclosedClass
  | invalidRange
  | invalidClassItem
  | missingOperand
  | invalidCount
  | invalidEscape
  | unsupportedReference
  | unsupportedLookAround
  | unsupportedProperty
  | invalidGroupName
  | duplicateGroupName
  | invalidFlags
  | nestedTooDeep
  | tooLarge
  deriving DecidableEq, Repr

/-- The wording of the error. -/
def RegexError.message : RegexError → String
  | unclosedGroup => "unclosed group"
  | unopenedGroup => "unopened group"
  | unclosedClass => "unclosed character class"
  | invalidRange => "invalid character class range, the start must be <= the end"
  | invalidClassItem => "invalid escape sequence in character class"
  | missingOperand => "repetition operator missing expression"
  | invalidCount => "invalid repetition count"
  | invalidEscape => "unrecognized escape sequence"
  | unsupportedReference => "backreferences are not supported"
  | unsupportedLookAround =>
    "look-around, including look-ahead and look-behind, is not supported"
  | unsupportedProperty => "Unicode property not found"
  | invalidGroupName => "invalid capture group name"
  | duplicateGroupName => "duplicate capture group name"
  | invalidFlags => "invalid flags"
  | nestedTooDeep => "the pattern is nested too deeply"
  | tooLarge => "the compiled pattern is too large"

namespace Regex

/-- A part of a pattern that is written with a backslash. -/
inductive Escape where
  | literal (c : Char)
  | cls (cls : CharClass)
  | assertion (a : Assertion)

/-- The text from the first character that counts: in verbose patterns blanks are
passed over, and comments up to the end of their line. -/
def skip (verbose : Bool) (cs : List Char) : List Char :=
  if verbose then go false cs else cs
where
  /-- Passes over blanks and comments; `inComment` tells where the text starts. -/
  go (inComment : Bool) : List Char → List Char
    | [] => []
    | c :: rest =>
      if inComment then go (c != '\n') rest
      else if c = '#' then go true rest
      else if Text.isBlank c then go false rest
      else c :: rest

/-! ### Escapes -/

/-- Whether a character has a meaning of its own in patterns. -/
def isMeta (c : Char) : Bool := "\\.+*?()|[]\x7b\x7d^$#&-~".toList.contains c

/-- Whether a backslash before a character makes it stand for itself. -/
def isEscapable (c : Char) : Bool :=
  isMeta c || (c.toNat < 0x80 && !c.isAlphanum && c != '<' && c != '>')

/-- The character with a code point, if there is one. -/
def charOfCode (n : Nat) : Except RegexError Char :=
  if n.isValidChar then .ok (Char.ofNat n) else .error .invalidEscape

/-- The value of hexadecimal digits, of which there has to be one. -/
def hexValue (digits : List Char) : Except RegexError Char :=
  match digits.mapM Json.hexDigit? with
  | none | some [] => .error .invalidEscape
  | some ds => charOfCode (ds.foldl (fun n d => n * 16 + d) 0)

/-- A code point in hexadecimal: `width` digits, or any number of them in braces. -/
def hexEscape (width : Nat) : List Char → Except RegexError (Char × List Char)
  | '\x7b' :: rest =>
    match rest.dropWhile (· != '\x7d') with
    | [] => .error .invalidEscape
    | _ :: after => (hexValue (rest.takeWhile (· != '\x7d'))).map (·, after)
  | rest =>
    if rest.length < width then .error .invalidEscape
    else (hexValue (rest.take width)).map (·, rest.drop width)

/-- The kind of word boundary that is named in braces after its letter. -/
def boundary (rest : List Char) : Assertion × List Char :=
  let named (name : String) (a : Assertion) : Option (Assertion × List Char) :=
    let written := '\x7b' :: name.toList ++ ['\x7d']
    if written.isPrefixOf rest then some (a, rest.drop written.length) else none
  (((named "start" .wordStart).or (named "end" .wordEnd)).or
    ((named "start-half" .wordStartHalf).or (named "end-half" .wordEndHalf))).getD
      (.wordBoundary, rest)

/-- Reads an escape after its backslash. -/
def escape : List Char → Except RegexError (Escape × List Char)
  | [] => .error .invalidEscape
  | c :: rest =>
    let literal (c : Char) : Except RegexError (Escape × List Char) := .ok (.literal c, rest)
    let cls (cls : CharClass) : Except RegexError (Escape × List Char) := .ok (.cls cls, rest)
    let place (a : Assertion) : Except RegexError (Escape × List Char) := .ok (.assertion a, rest)
    let hex (width : Nat) : Except RegexError (Escape × List Char) :=
      (hexEscape width rest).map fun (c, rest) => (.literal c, rest)
    match c with
    | 'd' => cls .digit
    | 'D' => cls (.complement .digit)
    | 's' => cls .blank
    | 'S' => cls (.complement .blank)
    | 'w' => cls .word
    | 'W' => cls (.complement .word)
    | 'x' => hex 2
    | 'u' => hex 4
    | 'U' => hex 8
    | 'a' => literal '\x07'
    | 'f' => literal '\x0c'
    | 't' => literal '\t'
    | 'n' => literal '\n'
    | 'r' => literal '\r'
    | 'v' => literal '\x0b'
    | 'A' => place .textStart
    | 'z' => place .textEnd
    | 'b' => let (a, rest) := boundary rest; .ok (.assertion a, rest)
    | 'B' => place .notWordBoundary
    | '<' => place .wordStart
    | '>' => place .wordEnd
    | 'p' | 'P' => .error .unsupportedProperty
    | c =>
      if c.isDigit then .error .unsupportedReference
      else if isEscapable c then literal c
      else .error .invalidEscape

/-! ### Bracketed classes -/

/-- The ASCII classes that can be named inside brackets. -/
def namedRanges? : String → Option (List (Char × Char))
  | "alnum" => some [('0', '9'), ('A', 'Z'), ('a', 'z')]
  | "alpha" => some [('A', 'Z'), ('a', 'z')]
  | "ascii" => some [('\x00', '\x7f')]
  | "blank" => some [('\t', '\t'), (' ', ' ')]
  | "cntrl" => some [('\x00', '\x1f'), ('\x7f', '\x7f')]
  | "digit" => some [('0', '9')]
  | "graph" => some [('!', '~')]
  | "lower" => some [('a', 'z')]
  | "print" => some [(' ', '~')]
  | "punct" => some [('!', '/'), (':', '@'), ('[', '\x60'), ('\x7b', '~')]
  | "space" => some [('\t', '\r'), (' ', ' ')]
  | "upper" => some [('A', 'Z')]
  | "word" => some [('0', '9'), ('A', 'Z'), ('_', '_'), ('a', 'z')]
  | "xdigit" => some [('0', '9'), ('A', 'F'), ('a', 'f')]
  | _ => none

/-- Reads a named class after its opening bracket; gives nothing if there is none. -/
def namedClass? : List Char → Option (ClassAst × List Char)
  | ':' :: rest =>
    let (negated, rest) := match rest with
      | '^' :: rest => (true, rest)
      | rest => (false, rest)
    match rest.dropWhile (· != ':') with
    | ':' :: ']' :: after =>
      (namedRanges? (String.ofList (rest.takeWhile (· != ':')))).map fun ranges =>
        (.nested negated (.set (.ofRanges ranges)), after)
    | _ => none
  | _ => none

/-- Reads an item of a class: a character, or a class that is written with a
backslash. -/
def classItem : List Char → Except RegexError (Escape × List Char)
  | [] => .error .unclosedClass
  | '\\' :: rest => escape rest
  | c :: rest => .ok (.literal c, rest)

/-- Reads an item of a class, or a range of characters. -/
def classRange (verbose : Bool) (cs : List Char) : Except RegexError (ClassAst × List Char) := do
  let (item, rest) ← classItem cs
  let single : Except RegexError ClassAst :=
    match item with
    | .literal c => .ok (.set (.single c))
    | .cls cls => .ok (.set cls)
    | .assertion _ => .error .invalidClassItem
  match skip verbose rest with
  | [] => .error .unclosedClass
  | '-' :: after =>
    match skip verbose after with
    | [] => .error .unclosedClass
    | next :: _ =>
      if next = ']' ∨ next = '-' then return (← single, skip verbose rest)
      else
        let (bound, rest) ← classItem (skip verbose after)
        match item, bound with
        | .literal first, .literal last =>
          if first.toNat ≤ last.toNat then return (.set (.range first last), rest)
          else .error .invalidRange
        | _, _ => .error .invalidClassItem
  | rest => return (← single, rest)

/-- An operation between two classes that waits for its second one. -/
abbrev Pending := ClassAst → ClassAst

/-- The operator at the start of a text, if there is one. -/
def classOperator? : List Char → Option ((ClassAst → ClassAst → ClassAst) × List Char)
  | '&' :: '&' :: rest => some (.intersection, rest)
  | '-' :: '-' :: rest => some (.difference, rest)
  | '~' :: '~' :: rest => some (.symmetricDifference, rest)
  | _ => none

/-- Adds an item to those read before it. -/
def addItem (before : Option ClassAst) (item : ClassAst) : Option ClassAst :=
  some (match before with
    | none => item
    | some before => .union before item)

/-- The class of the items read. -/
def itemsOf (items : Option ClassAst) : ClassAst := items.getD (.set .nothing)

mutual

/-- Reads a class after its opening bracket. -/
def classBody (verbose : Bool) : Nat → List Char → Except RegexError (ClassAst × List Char)
  | 0, _ => .error .unclosedClass
  | fuel + 1, cs => do
    let cs := skip verbose cs
    let negated := cs.head? == some '^'
    let cs := if negated then skip verbose (cs.drop 1) else cs
    let dashes := cs.takeWhile (· == '-')
    let cs := skip verbose (cs.dropWhile (· == '-'))
    let first : Option ClassAst := if dashes = [] then none else some (.set (.single '-'))
    let (body, rest) ←
      match cs, dashes with
      | ']' :: rest, [] =>
        classItems verbose fuel id (some (.set (.single ']'))) rest
      | cs, _ => classItems verbose fuel id first cs
    return (.nested negated body, rest)

/-- Reads the items of a class up to its closing bracket.  `pending` is the
operation in progress, and `items` is what was read since. -/
def classItems (verbose : Bool) :
    Nat → Pending → Option ClassAst → List Char → Except RegexError (ClassAst × List Char)
  | 0, _, _, _ => .error .unclosedClass
  | fuel + 1, pending, items, cs =>
    let cs := skip verbose cs
    match classOperator? cs with
    | some (op, rest) => classItems verbose fuel (op (pending (itemsOf items))) none rest
    | none =>
      match cs with
      | [] => .error .unclosedClass
      | ']' :: rest => .ok (pending (itemsOf items), rest)
      | '[' :: rest =>
        match namedClass? rest with
        | some (named, rest) => classItems verbose fuel pending (addItem items named) rest
        | none => do
          let (inner, rest) ← classBody verbose fuel rest
          classItems verbose fuel pending (addItem items inner) rest
      | cs => do
        let (item, rest) ← classRange verbose cs
        classItems verbose fuel pending (addItem items item) rest

end

/-! ### Repetitions -/

/-- Reads a number in a repetition, with the blanks around it.  It has to fit in 32
bits. -/
def countNumber (cs : List Char) : Except RegexError (Nat × List Char) :=
  let cs := cs.dropWhile Text.isBlank
  let digits := cs.takeWhile Char.isDigit
  let n := Json.ofDigits digits
  if digits = [] ∨ UInt32.size ≤ n then .error .invalidCount
  else .ok (n, (cs.dropWhile Char.isDigit).dropWhile Text.isBlank)

/-- Reads the bounds of a repetition after their opening brace. -/
def count (cs : List Char) : Except RegexError ((Nat × Option Nat) × List Char) := do
  let (least, rest) ← countNumber cs
  match rest with
  | '\x7d' :: rest => return ((least, some least), rest)
  | ',' :: rest =>
    match rest.dropWhile Text.isBlank with
    | '\x7d' :: rest => return ((least, none), rest)
    | rest =>
      let (most, rest) ← countNumber rest
      match rest with
      | '\x7d' :: rest =>
        if least ≤ most then return ((least, some most), rest) else .error .invalidCount
      | _ => .error .invalidCount
  | _ => .error .invalidCount

/-- Whether a repetition can be applied to an item. -/
def isRepeatable : Ast → Bool
  | .empty | .flags _ => false
  | _ => true

/-- The items with the last of them repeated.  They are given last item first. -/
def repeatLast (items : List Ast) (least : Nat) (most : Option Nat) :
    Except RegexError (List Ast) :=
  match items with
  | last :: before =>
    if isRepeatable last then .ok (.repetition last least most :: before)
    else .error .missingOperand
  | [] => .error .missingOperand

/-- The text after the mark that makes a repetition prefer fewer times. -/
def skipLazy (verbose : Bool) (cs : List Char) : List Char :=
  match skip verbose cs with
  | '?' :: rest => rest
  | _ => cs

/-! ### Groups -/

/-- The flags that can be changed. -/
def isFlag (c : Char) : Bool := "imsUuRx".toList.contains c

/-- Reads flags up to a colon or the end of their group.  `value` tells whether
they are set, `seen` which of them were read. -/
def flagChanges (value : Bool) (seen : List FlagChange) :
    List Char → Except RegexError (List FlagChange × List Char)
  | [] => .error .invalidFlags
  | c :: rest =>
    if c = ':' ∨ c = ')' then
      if !value && seen.all (·.value) then .error .invalidFlags else .ok (seen, c :: rest)
    else if c = '-' then
      if value then flagChanges false seen rest else .error .invalidFlags
    else if isFlag c && !seen.any (·.flag == c) then
      flagChanges value (seen ++ [⟨c, value⟩]) rest
    else .error .invalidFlags

/-- Whether a character can be part of the name of a group. -/
def isGroupNameChar (isFirst : Bool) (c : Char) : Bool :=
  c == '_' || (if isFirst then Text.isWordChar c && !Text.isDigit c
    else c == '.' || c == '[' || c == ']' || Text.isWordChar c)

/-- Reads the name of a group and the angle bracket after it. -/
def groupName (cs : List Char) : Except RegexError (String × List Char) :=
  match cs.takeWhile (· != '>'), cs.dropWhile (· != '>') with
  | first :: more, _ :: rest =>
    if isGroupNameChar true first && more.all (isGroupNameChar false) then
      .ok (String.ofList (first :: more), rest)
    else .error .invalidGroupName
  | _, _ => .error .invalidGroupName

/-- What is carried along while a pattern is read. -/
structure ReaderState where
  /-- Whether blanks and comments are passed over. -/
  verbose : Bool
  /-- The names of the groups so far. -/
  names : List String

/-- How a group begins. -/
inductive GroupStart where
  /-- Flags for the rest of the group around. -/
  | flags (changes : List FlagChange)
  | group (changes : List FlagChange)
  | named (name : String)

/-- Reads what stands after the opening parenthesis of a group. -/
def groupStart : List Char → Except RegexError (GroupStart × List Char)
  | '?' :: '=' :: _ | '?' :: '!' :: _ | '?' :: '<' :: '=' :: _ | '?' :: '<' :: '!' :: _ =>
    .error .unsupportedLookAround
  | '?' :: 'P' :: '<' :: rest | '?' :: '<' :: rest =>
    (groupName rest).map fun (name, rest) => (.named name, rest)
  | '?' :: rest => do
    let (changes, rest) ← flagChanges true [] rest
    match rest with
    | ')' :: rest =>
      if changes = [] then .error .missingOperand else return (.flags changes, rest)
    | _ :: rest => return (.group changes, rest)
    | [] => .error .unclosedGroup
  | rest => .ok (.group [], rest)

/-- Whether the flag that makes a pattern verbose is in force after some changes. -/
def verboseAfter (verbose : Bool) (changes : List FlagChange) : Bool :=
  (RegexFlags.changeAll ⟨false, false, false, verbose⟩ changes).verbose

mutual

/-- Reads alternatives up to the end of their group.  `branches` are the ones
before, last first, and `items` the items of the one being read, last first. -/
def alternatives :
    Nat → ReaderState → List Ast → List Ast → List Char →
      Except RegexError (Ast × ReaderState × List Char)
  | 0, _, _, _, _ => .error .tooLarge
  | fuel + 1, state, branches, items, cs =>
    let cs := skip state.verbose cs
    let goOn (state : ReaderState) (item : Ast) (rest : List Char) :=
      alternatives fuel state branches (item :: items) rest
    let repeated (least : Nat) (most : Option Nat) (rest : List Char) := do
      let items ← repeatLast items least most
      alternatives fuel state branches items (skipLazy state.verbose rest)
    let finished :=
      Ast.ofBranches ((Ast.ofItems items.reverse :: branches).reverse)
    match cs with
    | [] => .ok (finished, state, [])
    | ')' :: _ => .ok (finished, state, cs)
    | '|' :: rest =>
      alternatives fuel state (Ast.ofItems items.reverse :: branches) [] rest
    | '*' :: rest => repeated 0 none rest
    | '+' :: rest => repeated 1 none rest
    | '?' :: rest => repeated 0 (some 1) rest
    | '\x7b' :: rest => do
      let ((least, most), rest) ← count rest
      repeated least most rest
    | '.' :: rest => goOn state .dot rest
    | '^' :: rest => goOn state .start rest
    | '$' :: rest => goOn state .stop rest
    | '[' :: rest => do
      let (cls, rest) ← classBody state.verbose fuel rest
      goOn state (.bracketed cls) rest
    | '\\' :: rest => do
      let (e, rest) ← escape rest
      match e with
      | .literal c => goOn state (.literal c) rest
      | .cls cls => goOn state (.plainClass cls) rest
      | .assertion a => goOn state (.assertion a) rest
    | '(' :: rest => do
      let (start, rest) ← groupStart (skip state.verbose rest)
      match start with
      | .flags changes =>
        goOn { state with verbose := verboseAfter state.verbose changes } (.flags changes) rest
      | .group changes =>
        let (inner, state, rest) ← group fuel state changes rest
        goOn state inner rest
      | .named name =>
        if state.names.contains name then .error .duplicateGroupName
        else
          let (inner, state, rest) ← group fuel { state with names := name :: state.names } [] rest
          goOn state inner rest
    | c :: rest => goOn state (.literal c) rest

/-- Reads the content of a group and the parenthesis that closes it. -/
def group : Nat → ReaderState → List FlagChange → List Char →
    Except RegexError (Ast × ReaderState × List Char)
  | 0, _, _, _ => .error .tooLarge
  | fuel + 1, state, changes, cs => do
    let verbose := verboseAfter state.verbose changes
    let (inner, after, rest) ← alternatives fuel { state with verbose } [] [] cs
    match rest with
    | ')' :: rest => return (.group changes inner, { after with verbose := state.verbose }, rest)
    | _ => .error .unclosedGroup

end

/-- How deep the parts of a pattern may be nested. -/
def maxNesting : Nat := 250

/-- How many characters a pattern may have places for. -/
def maxCost : Nat := 250000

/-- Reads the text of a pattern. -/
def astOfText (text : List Char) : Except RegexError Ast := do
  let (ast, _, rest) ← alternatives (2 * text.length + 2) ⟨false, []⟩ [] [] text
  if rest ≠ [] then .error .unopenedGroup
  else if maxNesting < ast.depth then .error .nestedTooDeep
  else if maxCost < ast.cost then .error .tooLarge
  else return ast

/-- Reads a pattern, and gives it the expression it stands for. -/
def ofText (caseless : Bool) (text : List Char) : Except RegexError Regex := do
  let ast ← astOfText text
  return (ast.translate ⟨caseless, false, false, false⟩).1

end Regex

end MarkupQuery
