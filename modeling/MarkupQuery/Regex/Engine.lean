import MarkupQuery.Pattern.Engine
import MarkupQuery.Regex.Reader
import MarkupQuery.Selector.Parser

/-!
# Regular expressions as patterns

The pattern engine that is used unless another one is asked for, and the parser
that uses it.
-/

namespace MarkupQuery

/-- The engine that reads patterns as regular expressions. -/
def PatternEngine.regex : PatternEngine where
  compile pattern :=
    match Regex.ofText (pattern.case == .insensitive) pattern.source.toList with
    | .ok r => .ok fun text => r.search text.toList
    | .error e => .error e.message

/-- The parser with the standard configuration and regular expressions. -/
def Parser.standard : Parser := ⟨.standard, .regex⟩

end MarkupQuery
