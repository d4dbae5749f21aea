import MarkupQuery.Config
import MarkupQuery.Text.Search

/-!
# Patterns

A selector holds a pattern as its source with a case policy.  What the source
means is up to an engine, which can also refuse it.

* `PatternEngine.search` decides with an engine whether a pattern matches
  somewhere in a text.
-/

namespace MarkupQuery

/-- A pattern to be searched for: its source and the case policy it is read with. -/
structure Pattern where
  source : String
  case : CaseSensitivity
  deriving DecidableEq, Repr, Inhabited

/-- A way to give patterns a meaning. -/
structure PatternEngine where
  /-- The search that a pattern stands for, or why there is none. -/
  compile : Pattern → Except String (String → Bool)

namespace PatternEngine

/-- Whether a pattern matches somewhere in a text; a refused one never does. -/
def search (engine : PatternEngine) (pattern : Pattern) (text : String) : Bool :=
  match engine.compile pattern with
  | .ok found => found text
  | .error _ => false

/-- The engine that gives every source the search for nothing, and so accepts
them all. -/
def permissive : PatternEngine := ⟨fun _ => .ok fun _ => true⟩

/-- The engine that searches for the source itself.  It takes no source with an
exclamation mark, and ignores ASCII case if the policy is to ignore case. -/
def literal : PatternEngine where
  compile pattern :=
    if pattern.source.toList.contains '!' then .error "exclamation marks are not allowed"
    else .ok fun text =>
      match pattern.case with
      | .sensitive => Text.occursIn pattern.source.toList text.toList
      | .insensitive =>
        Text.occursIn (Text.asciiLowered pattern.source).toList (Text.asciiLowered text).toList

end PatternEngine

end MarkupQuery
