set_option autoImplicit false

namespace MoveMachine.CommandLine

inductive FileError where
  | missing
  | isDirectory
  /-- The path goes through a file as if it were a directory. -/
  | notDirectory
  | nameTooLong
  | other (reason : String)
  deriving DecidableEq, Inhabited

def FileError.message : FileError → String
  | .missing => "No such file or directory (os error 2)"
  | .isDirectory => "Is a directory (os error 21)"
  | .notDirectory => "Not a directory (os error 20)"
  | .nameTooLong => "File name too long (os error 36)"
  | .other reason => reason

structure FileAccess (m : Type → Type) where
  read : String → m (Except FileError String)
  write : String → String → m (Except FileError Unit)

end MoveMachine.CommandLine
