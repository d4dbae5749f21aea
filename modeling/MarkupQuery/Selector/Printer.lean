import MarkupQuery.Selector.Basic
import MarkupQuery.Selector.Delimited

/-!
# The canonical form of selectors

Every selector is written in one way: alternatives are separated by a comma and a
blank, explicit combinators stand between blanks, attribute values are quoted and
carry their case flag, and namespaces are written with a bar.
-/

namespace MarkupQuery

/-- A combinator with the blanks around it. -/
def Combinator.write : Combinator → List Char
  | descendant => [' ']
  | child => [' ', '>', ' ']
  | nextSibling => [' ', '+', ' ']
  | subsequentSibling => [' ', '~', ' ']

/-- The characters that ask for a comparison. -/
def ValueOperator.write : ValueOperator → List Char
  | equals => ['=']
  | notEquals => ['!', '=']
  | startsWith => ['^', '=']
  | endsWith => ['$', '=']
  | contains => ['*', '=']

/-- A quoted value followed by its case flag. -/
def writeFlagged (value : String) (case : CaseSensitivity) : List Char :=
  Delimited.writeQuoted value.toList ++ [' ', case.flag]

/-- A condition on attributes, without its brackets. -/
def AttributeTest.writeBody : AttributeTest → List Char
  | present name => name.toList
  | nameStart start => '^' :: start.toList
  | value op name expected =>
    name.toList ++ op.write ++ writeFlagged expected.value expected.case
  | pattern name p => name.toList ++ ['~', '='] ++ writeFlagged p.source p.case

/-- A condition on attributes. -/
def AttributeTest.write (test : AttributeTest) : List Char := '[' :: test.writeBody ++ [']']

/-- A type name, its namespace set off by a bar. -/
def writeTypeName (name : String) : List Char :=
  name.toList.map fun c => if c = ':' then '|' else c

/-- A pseudo-class without argument. -/
def PseudoName.write (name : PseudoName) : List Char := ':' :: name.text.toList

/-- A pseudo-class with the text of its argument. -/
def PseudoName.writeCall (name : PseudoName) (argument : List Char) : List Char :=
  name.write ++ '(' :: argument ++ [')']

mutual

/-- A simple selector in canonical form. -/
def Simple.write : Simple → List Char
  | .type name => writeTypeName name
  | .universal => ['*']
  | .id name => '#' :: name.toList
  | .ofClass name => '.' :: name.toList
  | .attribute test => test.write
  | .scope => PseudoName.scope.write
  | .structural test => (PseudoName.structural test).write
  | .has list => PseudoName.has.writeCall (Complex.writeAll list)
  | .not list => PseudoName.not.writeCall (Complex.writeAll list)
  | .contains extent text =>
    (PseudoName.contains extent).writeCall (Delimited.escapeArgument text.toList)
  | .finds extent pattern => (PseudoName.finds extent).writeCall pattern.source.toList
  | .ordinal o => (PseudoName.ordinal o.kind).writeCall (toString o.bound).toList

/-- A compound in canonical form. -/
def Simple.writeAll : List Simple → List Char
  | [] => []
  | s :: rest => s.write ++ Simple.writeAll rest

/-- A chain in canonical form. -/
def Complex.write : Complex → List Char
  | .only compound => Simple.writeAll compound
  | .linked compound via left => left.write ++ via.write ++ Simple.writeAll compound

/-- A selector list in canonical form. -/
def Complex.writeAll : List Complex → List Char
  | [] => []
  | [c] => c.write
  | c :: rest => c.write ++ [',', ' '] ++ Complex.writeAll rest

end

/-- The canonical text of a combinator. -/
def Combinator.print (c : Combinator) : String := String.ofList c.write

/-- The canonical text of a simple selector. -/
def Simple.print (s : Simple) : String := String.ofList s.write

/-- The canonical text of a compound. -/
def printCompound (c : Compound) : String := String.ofList (Simple.writeAll c)

/-- The canonical text of a selector list. -/
def printList (l : SelectorList) : String := String.ofList (Complex.writeAll l)

end MarkupQuery
