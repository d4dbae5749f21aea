import MarkupQuery.Selector.Basic

/-!
# Selector errors

What can be wrong with the text of a selector, and where.  Positions count
characters from the start of the outermost text.
-/

namespace MarkupQuery

/-- The ways in which a text is no selector. -/
inductive Reason where
  | expectedSelector
  | expectedSelectorAfter (c : Char)
  | unexpectedCharacter (c : Char)
  | typeNotFirst
  | expectedNameAfter (sigil : Char)
  | expectedNameStart
  | expectedAttributeName
  | expectedEqualsAfter (op : Char)
  | expectedAttributeValue
  | unterminatedQuote
  | unexpectedAfterValue
  | expectedPseudoName
  | unknownPseudo (written : String)
  | argumentRequired (name : PseudoName)
  | argumentRefused (name : PseudoName)
  | textRequired (name : PseudoName)
  | patternRequired (name : PseudoName)
  | indexRequired (name : PseudoName) (found : String)
  | unbalanced (opening closing : Char)
  deriving DecidableEq, Repr

/-- The wording of the reason. -/
def Reason.message : Reason → String
  | .expectedSelector => "expected a selector"
  | .expectedSelectorAfter c => s!"expected a selector after `{c}`"
  | .unexpectedCharacter c => s!"unexpected character `{c}`"
  | .typeNotFirst => "a tag name must come first in a compound"
  | .expectedNameAfter sigil => s!"expected a name after `{sigil}`"
  | .expectedNameStart => "expected an attribute name prefix after `^`"
  | .expectedAttributeName => "expected an attribute name"
  | .expectedEqualsAfter op => s!"expected `=` after `{op}`"
  | .expectedAttributeValue => "expected an attribute value"
  | .unterminatedQuote => "unterminated quoted value"
  | .unexpectedAfterValue => "unexpected text after attribute value"
  | .expectedPseudoName => "expected a pseudo-class name after `:`"
  | .unknownPseudo written => s!"unknown pseudo-class `:{written}`"
  | .argumentRequired name => s!"`:{name.text}` requires an argument in parentheses"
  | .argumentRefused name => s!"`:{name.text}` takes no argument"
  | .textRequired name => s!"`:{name.text}` requires text to search for"
  | .patternRequired name => s!"`:{name.text}` requires a pattern"
  | .indexRequired name found =>
    s!"`:{name.text}` requires a non-negative integer index, found `{found}`"
  | .unbalanced opening closing => s!"unbalanced `{opening}`: missing `{closing}`"

/-- Why a text could not be read as a selector list. -/
inductive SelectorError where
  /-- The text is not well formed. -/
  | malformed (position : Nat) (reason : Reason)
  /-- The pattern engine refused a pattern, with an explanation. -/
  | invalidPattern (source : String) (explanation : String)
  deriving DecidableEq, Repr

namespace SelectorError

/-- The wording of the error. -/
def message : SelectorError → String
  | malformed position reason =>
    s!"malformed selector at position {position}: {reason.message}"
  | invalidPattern source explanation => s!"invalid pattern `{source}`: {explanation}"

/-- The position of an ill-formed place; a refused pattern has none. -/
def position? : SelectorError → Option Nat
  | malformed position _ => some position
  | invalidPattern _ _ => none

/-- The error as it is reported when its text stands `offset` characters further
on. -/
def shift (offset : Nat) : SelectorError → SelectorError
  | malformed position reason => malformed (position + offset) reason
  | invalidPattern source explanation => invalidPattern source explanation

end SelectorError

end MarkupQuery
