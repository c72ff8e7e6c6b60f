import MoveMachine.Decimal

set_option autoImplicit false

namespace MoveMachine.CommandLine

structure RunOptions where
  maxSteps : Nat := 10000
  /-- Text queued on the console. -/
  input : Option String := none
  /-- Asks for a log of the moves, which is no part of a report. -/
  trace : Bool := false
  /-- Asks for the memory after the run. -/
  dump : Bool := false
  deriving DecidableEq, Inhabited

inductive Command where
  | banner
  | version
  | help
  | runFile (path : String) (noBase : Bool) (options : RunOptions)
  | runProgram (name : String) (options : RunOptions)
  | exportFile (path : String) (noBase noCallbacks : Bool) (output : Option String)
  | list
  deriving DecidableEq, Inhabited

structure OptionSpec where
  long : String
  short : Option Char := none
  takesValue : Bool := false

structure Given where
  options : List (String × String) := []
  positionals : List String := []

namespace Given

def value? (given : Given) (long : String) : Option String := given.options.lookup long

def has (given : Given) (long : String) : Bool := (given.value? long).isSome

def addOptions (options : List (String × String)) (given : Given) : Given :=
  { given with options := options ++ given.options }

def addPositional (argument : String) (given : Given) : Given :=
  { given with positionals := argument :: given.positionals }

end Given

def isValue (argument : String) : Bool :=
  match argument.toList with
  | '-' :: _ :: _ => false
  | _ => true

/--
The options in a cluster of short ones. The first that takes a value takes the rest of the
cluster, less an equals sign before it; if nothing is left, its value is still to come.
-/
def cluster? (specs : List OptionSpec) :
    List Char → Option (List (String × String) × Option String)
  | [] => some ([], none)
  | c :: rest => do
    let spec ← specs.find? fun spec => spec.short == some c
    if spec.takesValue then
      match rest with
      | [] => return ([], some spec.long)
      | '=' :: value => return ([(spec.long, String.ofList value)], none)
      | value => return ([(spec.long, String.ofList value)], none)
    else
      let (options, pending) ← cluster? specs rest
      return ((spec.long, "") :: options, pending)

def long? (specs : List OptionSpec) (body : List Char) :
    Option (List (String × String) × Option String) := do
  let long := String.ofList (body.takeWhile (· != '='))
  let spec ← specs.find? fun spec => spec.long == long
  match body.dropWhile (· != '='), spec.takesValue with
  | _ :: value, true => return ([(long, String.ofList value)], none)
  | [], true => return ([], some long)
  | [], false => return ([(long, "")], none)
  | _, false => none

def options? (specs : List OptionSpec) (argument : String) :
    Option (Option (List (String × String) × Option String)) :=
  match argument.toList with
  | '-' :: '-' :: body => (long? specs body).map some
  | '-' :: c :: rest => (cluster? specs (c :: rest)).map some
  | _ => some none

def collect? (specs : List OptionSpec) : List String → Option Given
  | [] => some {}
  | argument :: rest =>
    if argument = "--" then some { positionals := rest }
    else match options? specs argument with
      | none => none
      | some none => (collect? specs rest).map (Given.addPositional argument)
      | some (some (options, none)) => (collect? specs rest).map (Given.addOptions options)
      | some (some (options, some pending)) =>
        match rest with
        | [] => none
        | value :: later =>
          if isValue value then
            (collect? specs later).map (Given.addOptions (options ++ [(pending, value)]))
          else none

/-- Sorts arguments, and refuses an option that is given twice. -/
def sort? (specs : List OptionSpec) (arguments : List String) : Option Given := do
  let given ← collect? specs arguments
  if (given.options.map (·.1)).Nodup then some given else none

def Given.positional? (given : Given) : Option String :=
  match given.positionals with
  | [argument] => some argument
  | _ => none

/-- A number of steps: digits with an optional plus, in the range of an address. -/
def stepLimit? (text : String) : Option Nat := do
  let digits := match text.toList with
    | '+' :: digits => digits
    | digits => digits
  return (← Decimal.address? digits).toNat

def runSpecs : List OptionSpec :=
  [⟨"max-steps", some 'm', true⟩, ⟨"input", some 'i', true⟩, ⟨"trace", some 't', false⟩,
    ⟨"dump", some 'd', false⟩]

def noBaseSpec : OptionSpec := ⟨"no-base", none, false⟩

def exportSpecs : List OptionSpec :=
  [noBaseSpec, ⟨"no-callbacks", none, false⟩, ⟨"output", some 'o', true⟩]

def runOptions? (given : Given) : Option RunOptions := do
  let maxSteps ← match given.value? "max-steps" with
    | none => some 10000
    | some text => stepLimit? text
  return { maxSteps, input := given.value? "input", trace := given.has "trace",
           dump := given.has "dump" }

def commandNames : List String := ["run", "example", "export", "list", "help"]

/-- The command that arguments ask for, or nothing if they cannot be understood. -/
def Command.ofArgs? : List String → Option Command
  | [] => some .banner
  | ["--"] => some .banner
  | name :: arguments =>
    if name = "--version" then some .version
    else if name = "--help" then some .help
    else if name = "help" then
      match arguments with
      | [] => some .help
      | [topic] => if commandNames.contains topic then some .help else none
      | _ => none
    else if name = "list" then do
      let given ← sort? [] arguments
      if given.positionals.isEmpty then some .list else none
    else if name = "run" then do
      let given ← sort? (noBaseSpec :: runSpecs) arguments
      return .runFile (← given.positional?) (given.has "no-base") (← runOptions? given)
    else if name = "example" then do
      let given ← sort? runSpecs arguments
      return .runProgram (← given.positional?) (← runOptions? given)
    else if name = "export" then do
      let given ← sort? exportSpecs arguments
      return .exportFile (← given.positional?) (given.has "no-base") (given.has "no-callbacks")
        (given.value? "output")
    else match name.toList with
      | '-' :: 'V' :: _ => some .version
      | '-' :: 'h' :: _ => some .help
      | _ => none

end MoveMachine.CommandLine
