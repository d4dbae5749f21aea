/-!
# Warnings

A warning is given once: a second one that would print the same line is dropped,
until the record is cleared.

* `WarningLog.warn` says whether the warning was printed;
* `WarningLog.printed` keeps every line that was printed, over all clearings.
-/

namespace MarkupQuery

/-- Something tolerated that the user should know of, and the part of the
program that noticed it. -/
structure Warning where
  component : String
  message : String
  deriving DecidableEq, Repr

/-- The line by which repetitions are told. -/
def Warning.line (w : Warning) : String := "[" ++ w.component ++ "] " ++ w.message

/-- The warning for a tag name that is not registered. -/
def Warning.unknownTag (name : String) : Warning :=
  ⟨"DOM", "unknown tag <" ++ name ++ ">, treated as generic inline"⟩

/-- The record of warnings. -/
structure WarningLog where
  /-- The lines given since the record was last cleared. -/
  seen : List String
  /-- All warnings printed, in order. -/
  printed : List Warning
  deriving DecidableEq, Repr

namespace WarningLog

/-- The record before any warning. -/
def empty : WarningLog := ⟨[], []⟩

/-- Gives a warning, and reports whether it was printed rather than dropped as a
repetition. -/
def warn (log : WarningLog) (w : Warning) : WarningLog × Bool :=
  if w.line ∈ log.seen then (log, false)
  else (⟨w.line :: log.seen, log.printed ++ [w]⟩, true)

/-- Forgets which lines were given. -/
def clear (log : WarningLog) : WarningLog := { log with seen := [] }

end WarningLog

end MarkupQuery
