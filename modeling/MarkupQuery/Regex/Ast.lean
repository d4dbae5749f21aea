import MarkupQuery.Regex.Basic

/-!
# The written form of regular expressions

A pattern as it is written: with groups, flags that change how what follows is
read, and repetitions with bounds.

* `Ast.translate` gives it the expression it stands for;
* `Ast.depth` and `Ast.cost` measure what is refused when it grows too large.
-/

namespace MarkupQuery

/-- The part of a bracketed class, as written. -/
inductive ClassAst where
  | set (cls : CharClass)
  | union (a b : ClassAst)
  | intersection (a b : ClassAst)
  | difference (a b : ClassAst)
  | symmetricDifference (a b : ClassAst)
  /-- A class in brackets of its own. -/
  | nested (negated : Bool) (a : ClassAst)
  deriving DecidableEq, Repr

namespace ClassAst

/-- The class without regard to case, if that is asked for. -/
def fold (caseless : Bool) (cls : CharClass) : CharClass :=
  if caseless then .caseless cls else cls

/-- The class that is meant. -/
def translate (caseless : Bool) : ClassAst → CharClass
  | set cls => cls
  | union a b => .either (a.translate caseless) (b.translate caseless)
  | intersection a b =>
    .both (fold caseless (a.translate caseless)) (fold caseless (b.translate caseless))
  | difference a b =>
    .without (fold caseless (a.translate caseless)) (fold caseless (b.translate caseless))
  | symmetricDifference a b =>
    .oneOf (fold caseless (a.translate caseless)) (fold caseless (b.translate caseless))
  | nested negated a =>
    let cls := fold caseless (a.translate caseless)
    if negated then .complement cls else cls

/-- How deep brackets are nested. -/
def depth : ClassAst → Nat
  | set _ => 0
  | union a b | intersection a b | difference a b | symmetricDifference a b =>
    max a.depth b.depth
  | nested _ a => a.depth + 1

end ClassAst

/-- The flags that change how a pattern is read. -/
structure RegexFlags where
  caseless : Bool
  /-- `^` and `$` match at the ends of lines. -/
  multiline : Bool
  /-- The dot matches line feeds too. -/
  dotAll : Bool
  /-- Blanks and comments in the pattern do not count. -/
  verbose : Bool
  deriving DecidableEq, Repr

/-- A flag and whether it is set or cleared. -/
structure FlagChange where
  flag : Char
  value : Bool
  deriving DecidableEq, Repr

namespace RegexFlags

/-- The flags after one change; flags that do not bear on whether a pattern
matches are passed over. -/
def change (flags : RegexFlags) (c : FlagChange) : RegexFlags :=
  match c.flag with
  | 'i' => { flags with caseless := c.value }
  | 'm' => { flags with multiline := c.value }
  | 's' => { flags with dotAll := c.value }
  | 'x' => { flags with verbose := c.value }
  | _ => flags

/-- The flags after some changes. -/
def changeAll (flags : RegexFlags) (changes : List FlagChange) : RegexFlags :=
  changes.foldl change flags

end RegexFlags

/-- A pattern as written. -/
inductive Ast where
  | empty
  /-- Flags for the rest of the group. -/
  | flags (changes : List FlagChange)
  | literal (c : Char)
  | dot
  /-- A place, told by `^` or `$`. -/
  | start
  | stop
  | assertion (a : Assertion)
  /-- A class that case does not matter for. -/
  | plainClass (cls : CharClass)
  | bracketed (cls : ClassAst)
  | repetition (a : Ast) (least : Nat) (most : Option Nat)
  | group (changes : List FlagChange) (a : Ast)
  | concat (items : List Ast)
  | alternation (items : List Ast)

namespace Ast

/-- The concatenation of items, kept as it is if there is one item only. -/
def ofItems : List Ast → Ast
  | [] => empty
  | [a] => a
  | items => concat items

/-- The alternation of branches, kept as it is if there is one branch only. -/
def ofBranches : List Ast → Ast
  | [] => empty
  | [a] => a
  | branches => alternation branches

mutual

/-- The expression that a pattern stands for, and the flags in force after it. -/
def translate (flags : RegexFlags) : Ast → Regex × RegexFlags
  | empty => (.empty, flags)
  | .flags changes => (.empty, flags.changeAll changes)
  | literal c => (.ofClass (ClassAst.fold flags.caseless (.single c)), flags)
  | dot => (.ofClass (.complement (if flags.dotAll then .nothing else .single '\n')), flags)
  | start => (.assert (if flags.multiline then .lineStart else .textStart), flags)
  | stop => (.assert (if flags.multiline then .lineEnd else .textEnd), flags)
  | assertion a => (.assert a, flags)
  | plainClass cls => (.ofClass cls, flags)
  | bracketed cls => (.ofClass (cls.translate flags.caseless), flags)
  | repetition a least most =>
    let (r, flags) := a.translate flags
    (r.between least most, flags)
  | group changes a => ((a.translate (flags.changeAll changes)).1, flags)
  | concat items => translateItems flags items
  | alternation branches => translateBranches flags branches

/-- The sequence of some patterns; flags go on from one to the next. -/
def translateItems (flags : RegexFlags) : List Ast → Regex × RegexFlags
  | [] => (.empty, flags)
  | a :: rest =>
    let (r, flags) := a.translate flags
    let (s, flags) := translateItems flags rest
    (.seq r s, flags)

/-- The choice of some patterns; flags go on from one to the next. -/
def translateBranches (flags : RegexFlags) : List Ast → Regex × RegexFlags
  | [] => (.ofClass .nothing, flags)
  | a :: rest =>
    let (r, flags) := a.translate flags
    let (s, flags) := translateBranches flags rest
    (.either r s, flags)

end

mutual

/-- How deep the parts of a pattern are nested. -/
def depth : Ast → Nat
  | bracketed cls => cls.depth
  | repetition a _ _ => a.depth + 1
  | group _ a => a.depth + 1
  | concat items => depthOfAll items + 1
  | alternation items => depthOfAll items + 1
  | _ => 0

/-- The greatest depth of some patterns. -/
def depthOfAll : List Ast → Nat
  | [] => 0
  | a :: rest => max a.depth (depthOfAll rest)

end

mutual

/-- The number of characters that a pattern has places for, every repetition
written out. -/
def cost : Ast → Nat
  | repetition a least most => a.cost * max 1 (max least (most.getD 0))
  | group _ a => a.cost
  | concat items => costOfAll items
  | alternation items => costOfAll items
  | _ => 1

/-- The cost of some patterns together. -/
def costOfAll : List Ast → Nat
  | [] => 0
  | a :: rest => a.cost + costOfAll rest

end

end Ast

end MarkupQuery
