import MoveMachine.Decimal
import MoveMachine.Text.Quoted

set_option autoImplicit false

namespace MoveMachine

inductive ConfigError where
  /-- The text is no literal, or refers to a name without a usable address. -/
  | invalidLiteral (text : String)
  /-- The block that starts at this address needs more addresses than there are. -/
  | malformedBlock (base : Address)
  /-- No device of this name is registered. -/
  | unknownDevice (device : String)
  /-- A trigger of this address cannot be named in a file. -/
  | unlabeledTrigger (place : Address)
  /-- The text of a file is no configuration. -/
  | unparsable
  /-- A file cannot be read or written. -/
  | inaccessible (reason : String)
  deriving DecidableEq, Inhabited

def ConfigError.message : ConfigError → String
  | .invalidLiteral text => "invalid literal: " ++ Text.Quoted.ofString text
  | .malformedBlock base =>
    "malformed block at " ++ Decimal.ofAddress base ++
      ": block runs past the end of the address space"
  | .unknownDevice device => "unknown device: " ++ device
  | .unlabeledTrigger place => "trigger at " ++ Decimal.ofAddress place ++ " has no device label"
  | .unparsable => "parse error: not a configuration"
  | .inaccessible reason => "I/O error: " ++ reason

end MoveMachine
