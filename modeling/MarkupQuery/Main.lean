import MarkupQuery.CommandLine.Run

/-!
# The program

Reads the files that the arguments name, and prints what the query reports.
-/

open MarkupQuery.CommandLine

/-- The contents of a file, unless it cannot be read. -/
def contents? (file : String) : IO (Option String) :=
  try
    return some (← IO.FS.readFile file)
  catch _ => return none

/-- Runs the program. -/
def main (args : List String) : IO UInt32 := do
  let contents ← (filesOf args).mapM fun file => return (file, ← contents? file)
  let report := report args fun file => (contents.lookup file).join
  IO.print report.output
  IO.eprint report.errors
  return report.code.toUInt32
