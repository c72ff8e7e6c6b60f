import MoveMachine.CommandLine.Report

set_option autoImplicit false

namespace MoveMachine.CommandLine

/-- How deep triggers may nest in a run of the program. -/
def nestingLimit : Nat := 100000

/-- The number of a system error, which some operations give with its sign reversed. -/
private def errorNumber (code : UInt32) : UInt32 := min code (-code)

private def fileError (error : IO.Error) : FileError :=
  match error with
  | .noFileOrDirectory .. => .missing
  | .invalidArgument _ code _ =>
    if errorNumber code = 36 then .nameTooLong else .other (toString error)
  | .inappropriateType _ code _ =>
    if errorNumber code = 21 then .isDirectory else .notDirectory
  | error => .other (toString error)

private def attempt {α : Type} (operation : IO α) : IO (Except FileError α) := do
  return (← operation.toBaseIO).mapError fileError

private def systemFiles : FileAccess IO where
  read path := attempt (IO.FS.readFile path)
  write path text := attempt (IO.FS.writeFile path text)

end MoveMachine.CommandLine

open MoveMachine.CommandLine in
def main (arguments : List String) : IO UInt32 := do
  let report ← execute systemFiles nestingLimit arguments
  IO.print report.output
  IO.eprint report.errors
  return report.exitCode.toUInt32
