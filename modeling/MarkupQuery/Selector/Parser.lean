import MarkupQuery.Selector.Token

/-!
# Reading selectors

The tokens of a text are taken one by one by a machine whose state says what may
come next.  Arguments that are selectors themselves are read in the same way, with
positions that go on from where the argument stands.

* `Progress.take` — the state after one more token;
* `Parser.parseAt` reads a text that stands at some position, `Parser.parse` one
  that stands at the start;
* the parser's engine is asked about each pattern as soon as it is read.
-/

namespace MarkupQuery

open Delimited

/-- A configured reader of selectors. -/
structure Parser where
  config : Config
  engine : PatternEngine

/-- What comes of reading a text. -/
abbrev Outcome := Except SelectorError

namespace Parser

/-! ### Attribute conditions -/

/-- A pattern, if the engine takes it. -/
def pattern (p : Parser) (source : String) (case : CaseSensitivity) : Outcome Pattern :=
  match p.engine.compile ⟨source, case⟩ with
  | .ok _ => .ok ⟨source, case⟩
  | .error explanation => .error (.invalidPattern source explanation)

/-- Whether a character ends the name of an attribute. -/
def isOperatorChar (c : Char) : Bool :=
  c == '=' || c == '!' || c == '^' || c == '$' || c == '*' || c == '~'

/-- The case flag after a quoted value.  `stop` is the position where the text
ends. -/
def valueFlag (stop : Nat) (cs : List Char) : Outcome (Option CaseSensitivity) :=
  match cs.dropWhile Text.isBlank with
  | [] => .ok none
  | c :: rest =>
    match CaseSensitivity.ofFlag? c with
    | none => .error (.malformed (stop - (rest.length + 1)) .unexpectedAfterValue)
    | some flag =>
      let rest := rest.dropWhile Text.isBlank
      if rest = [] then .ok (some flag)
      else .error (.malformed (stop - rest.length) .unexpectedAfterValue)

/-- The value of an attribute condition, with its flag: quoted, or as it stands up
to the end of the text at `stop`. -/
def attributeValue (stop : Nat) (cs : List Char) :
    Outcome (String × Option CaseSensitivity) :=
  match cs.dropWhile Text.isBlank with
  | [] => .error (.malformed stop .expectedAttributeValue)
  | c :: rest =>
    if isQuote c then
      match readQuoted c rest with
      | none => .error (.malformed (stop - (rest.length + 1)) .unterminatedQuote)
      | some (value, rest) => do
        let flag ← valueFlag stop rest
        return (String.ofList value, flag)
    else .ok (String.ofList (Text.trim (c :: rest)), none)

/-- The comparison that an operator character asks for; the one left over asks for
a pattern. -/
def valueOperator? : Char → Option ValueOperator
  | '=' => some .equals
  | '!' => some .notEquals
  | '^' => some .startsWith
  | '$' => some .endsWith
  | '*' => some .contains
  | _ => none

/-- The condition that follows the name of an attribute: the operator `op`, and
the text after it. -/
def comparison (p : Parser) (stop : Nat) (name : String) (op : Char) (rest : List Char) :
    Outcome AttributeTest := do
  let rest ←
    if op = '=' then pure rest
    else
      match rest with
      | '=' :: rest => pure rest
      | rest => .error (.malformed (stop - rest.length) (.expectedEqualsAfter op))
  let (value, flag) ← attributeValue stop rest
  match valueOperator? op with
  | some op =>
    return .value op name (.ofWritten value (flag.getD p.config.attributeValues))
  | none =>
    let pattern ← p.pattern (Text.trimmed value) (flag.getD p.config.patterns)
    return .pattern name pattern

/-- The condition written between the square brackets opened at `opening`. -/
def attributeTest (p : Parser) (opening : Nat) (content : List Char) : Outcome AttributeTest :=
  let stop := opening + 1 + content.length
  let named (cs : List Char) : String := Text.asciiLowered (String.ofList (Text.trim cs))
  match content.dropWhile Text.isBlank with
  | '^' :: rest =>
    let start := named rest
    if start = "" then .error (.malformed opening .expectedNameStart) else .ok (.nameStart start)
  | body =>
    let name := named (body.takeWhile (!isOperatorChar ·))
    if name = "" then .error (.malformed opening .expectedAttributeName)
    else
      match body.dropWhile (!isOperatorChar ·) with
      | [] => .ok (.present name)
      | op :: rest => p.comparison stop name op rest

/-! ### Pseudo-classes -/

/-- The number that a text writes in decimal digits, perhaps after a plus sign.
It has to fit in 64 bits. -/
def index? (cs : List Char) : Option Nat :=
  let digits := match cs with
    | '+' :: rest => rest
    | _ => cs
  let n := Json.ofDigits digits
  if digits ≠ [] ∧ digits.all Char.isDigit ∧ n < UInt64.size then some n else none

/-- The condition of a pseudo-class without argument, at `position`. -/
def plainPseudo (position : Nat) : PseudoName → Outcome Simple
  | .scope => .ok .scope
  | .structural test => .ok (.structural test)
  | name => .error (.malformed position (.argumentRequired name))

/-- The condition of a pseudo-class whose argument starts after the parenthesis at
`opening`.  `nested` reads an argument that is itself a selector list. -/
def pseudoCall (p : Parser) (nested : List Char → Nat → Outcome SelectorList)
    (name : PseudoName) (opening : Nat) (argument : List Char) : Outcome Simple :=
  let base := opening + 1
  match name with
  | .has => (nested argument base).map .has
  | .not => (nested argument base).map .not
  | .contains extent =>
    let text := Text.lower (Text.trim (unescape argument))
    if text = [] then .error (.malformed base (.textRequired name))
    else .ok (.contains extent (String.ofList text))
  | .finds extent =>
    if Text.trim argument = [] then .error (.malformed base (.patternRequired name))
    else (p.pattern (String.ofList argument) p.config.patterns).map (.finds extent)
  | .ordinal kind =>
    let written := Text.trim argument
    match index? written with
    | some bound => .ok (.ordinal ⟨kind, bound⟩)
    | none => .error (.malformed base (.indexRequired name (String.ofList written)))
  | _ => .error (.malformed opening (.argumentRefused name))

end Parser

/-! ### Tokens to selectors -/

/-- What may come next in the text of a selector list. -/
inductive Place where
  /-- An alternative, of which nothing is read yet. -/
  | opening
  /-- A compound, after a combinator at the start of an alternative: the chain on
  its left is the scope root. -/
  | leading (via : Combinator)
  /-- A compound, after the combinator written as `c`. -/
  | pending (c : Char) (via : Combinator) (left : Complex)
  /-- More of a compound, of which something is read already. -/
  | inside (left : Option (Combinator × Complex)) (compound : Compound)
  /-- Anything that goes on after a compound and a blank. -/
  | behind (chain : Complex)

/-- A chain ended by a compound. -/
def Complex.extend (left : Option (Combinator × Complex)) (compound : Compound) : Complex :=
  match left with
  | none => .only compound
  | some (via, left) => .linked compound via left

/-- How far the reading of a selector list has come. -/
structure Progress where
  /-- The alternatives that are complete. -/
  done : List Complex
  place : Place

namespace Progress

/-- Nothing is read yet. -/
def start : Progress := ⟨[], .opening⟩

/-- The progress after one more simple selector. -/
def addSimple (p : Progress) (s : Simple) : Progress :=
  match p.place with
  | .opening => { p with place := .inside none [s] }
  | .leading via => { p with place := .inside (some (via, .only [.scope])) [s] }
  | .pending _ via left => { p with place := .inside (some (via, left)) [s] }
  | .inside left compound => { p with place := .inside left (compound ++ [s]) }
  | .behind chain => { p with place := .inside (some (.descendant, chain)) [s] }

/-- The progress after a type selector, which has to be the first of its compound. -/
def addType (p : Progress) (position : Nat) (name : String) : Outcome Progress :=
  match p.place with
  | .inside _ _ => .error (.malformed position .typeNotFirst)
  | _ => .ok (p.addSimple (.type name))

/-- The progress after a blank. -/
def addBlank (p : Progress) : Progress :=
  match p.place with
  | .inside left compound => { p with place := .behind (.extend left compound) }
  | _ => p

/-- The progress after a combinator. -/
def addCombinator (p : Progress) (position : Nat) (c : Char) (via : Combinator) :
    Outcome Progress :=
  match p.place with
  | .opening => .ok { p with place := .leading via }
  | .inside left compound => .ok { p with place := .pending c via (.extend left compound) }
  | .behind chain => .ok { p with place := .pending c via chain }
  | _ => .error (.malformed position .expectedSelector)

/-- The alternatives, when the one being read ends at `position`. -/
def close (p : Progress) (position : Nat) : Outcome SelectorList :=
  match p.place with
  | .opening | .leading _ => .error (.malformed position .expectedSelector)
  | .pending c _ _ => .error (.malformed position (.expectedSelectorAfter c))
  | .inside left compound => .ok (p.done ++ [.extend left compound])
  | .behind chain => .ok (p.done ++ [chain])

/-- The alternatives, when the text ends at `position`.  A comma needs another
alternative after it. -/
def finish (p : Progress) (position : Nat) : Outcome SelectorList :=
  match p.place, p.done with
  | .opening, _ :: _ => .error (.malformed position (.expectedSelectorAfter ','))
  | _, _ => p.close position

/-- The error for a character that starts no token. -/
def refuse (p : Progress) (position : Nat) (c : Char) : SelectorError :=
  match p.place with
  | .inside _ _ => .malformed position (.unexpectedCharacter c)
  | _ => .malformed position .expectedSelector

/-- The progress after one more token. -/
def take (parser : Parser) (nested : List Char → Nat → Outcome SelectorList)
    (p : Progress) (token : Token) : Outcome Progress :=
  match token.lexeme with
  | .blank => .ok p.addBlank
  | .comma => (p.close token.position).map fun done => ⟨done, .opening⟩
  | .combinator c via => p.addCombinator token.position c via
  | .star => .ok (p.addSimple .universal)
  | .type letters =>
    p.addType token.position
      (String.ofList (letters.map fun c => if c = '|' then ':' else c.toLower))
  | .id letters => .ok (p.addSimple (.id (String.ofList letters)))
  | .ofClass letters => .ok (p.addSimple (.ofClass (String.ofList letters)))
  | .attribute content =>
    (parser.attributeTest token.position content).map fun test => p.addSimple (.attribute test)
  | .pseudo name none => (Parser.plainPseudo token.position name).map p.addSimple
  | .pseudo name (some (opening, argument)) =>
    (parser.pseudoCall nested name opening argument).map p.addSimple
  | .stray c => .error (p.refuse token.position c)
  | .fault e => .error e

end Progress

namespace Parser

/-- Reads a selector list whose arguments are nested less than `depth` deep. -/
def parseWithin (p : Parser) : Nat → List Char → Nat → Outcome SelectorList
  | 0, _, base => .error (.malformed base .expectedSelector)
  | depth + 1, cs, base => do
    let progress ←
      (Token.scan false base cs).foldlM (Progress.take p (p.parseWithin depth)) .start
    progress.finish (base + cs.length)

/-- Reads a selector list from a text that stands at position `base`.  An argument
is shorter than the text around it, so that no nesting is too deep. -/
def parseAt (p : Parser) (cs : List Char) (base : Nat) : Outcome SelectorList :=
  p.parseWithin (cs.length + 1) cs base

/-- Reads a selector list. -/
def parse (p : Parser) (text : String) : Outcome SelectorList := p.parseAt text.toList 0

end Parser

end MarkupQuery
