import MoveMachine.CommandLine.Args
import MoveMachine.CommandLine.Files
import MoveMachine.Config.Load
import MoveMachine.ConfigFile.Text
import MoveMachine.Program

set_option autoImplicit false

namespace MoveMachine.CommandLine

structure Report where
  exitCode : Nat := 0
  output : String := ""
  errors : String := ""
  deriving DecidableEq, Inhabited

def unlines (lines : List String) : String := String.join (lines.map (· ++ "\n"))

def Report.done (lines : List String) : Report := { output := unlines lines }

def Report.failed (lines : List String) (reason : String) : Report :=
  { exitCode := 1, output := unlines lines, errors := unlines ["❌ " ++ reason] }

def padRight (width : Nat) (text : String) : String :=
  text ++ String.ofList (List.replicate (width - text.length) ' ')

def padLeft (width : Nat) (text : String) : String :=
  String.ofList (List.replicate (width - text.length) ' ') ++ text

def dumpLine (place symbols stored observed marker : String) : String :=
  padLeft 6 place ++ "  " ++ padRight 16 symbols ++ " " ++ padLeft 12 stored ++ " " ++
    padLeft 12 observed ++ marker

def marker (memory : Memory) (place : Address) : String :=
  match memory.readTrigger place, memory.writeTriggers place with
  | some _, _ :: _ => " rw"
  | some _, [] => " r"
  | none, _ :: _ => " w"
  | none, [] => ""

def dumpLines (memory : Memory) : List String :=
  dumpLine "addr" "symbols" "stored" "observed" "" ::
    memory.addresses.map fun place =>
      dumpLine (Decimal.ofAddress place) (",".intercalate (memory.symbols.aliasesOf place))
        (((memory.stored place).map Decimal.ofWord).getD "")
        (((memory.observed place).map Decimal.ofWord).getD "") (marker memory place)

def resultLines (options : RunOptions) (system : System) : List String :=
  let printed := system.host.console.outputText
  let output := if printed.isEmpty then [] else ["", "━━━ Output ━━━", printed]
  let lastMove := match system.machine.lastMove with
    | none => []
    | some made => ["Last move: " ++ Decimal.ofAddress made.source ++ " → " ++
        Decimal.ofAddress made.target ++ " (" ++ Decimal.ofWord made.value ++ ") at " ++
        Decimal.ofAddress made.ip]
  let dump :=
    if options.dump then ["", "━━━ Memory ━━━"] ++ dumpLines system.machine.memory else []
  output ++ ["", "━━━ Result ━━━", "Steps: " ++ toString system.machine.steps] ++ lastMove ++ dump

def runConfig (depth : Nat) (options : RunOptions) (before : List String)
    (config : Config) : Report :=
  match Machine.ofConfig config with
  | .error error => .failed before ("Failed to load configuration: " ++ error.message)
  | .ok machine =>
    let loaded := before ++ ["📂 Loaded " ++ toString config.size ++ " cells, " ++
      toString machine.memory.symbols.size ++ " symbols"]
    let console := Console.ofInput (options.input.getD "")
    match Machine.run .standard depth options.maxSteps ⟨machine, { console }⟩ with
    | none => .failed loaded "Triggers nest too deeply"
    | some (result, system) =>
      let lines := loaded ++ resultLines options system
      match result with
      | .ok _ => .done (lines ++ ["State: Halted"])
      | .error (.budgetExhausted steps) =>
        .done (lines ++ ["State: Running", "", "⚠️  Reached max steps limit (" ++ toString steps ++
          "). Use --max-steps to increase."])
      | .error error => .failed lines
        ("Machine error after " ++ toString system.machine.steps ++ " steps: " ++ error.message)

def listLines : List String :=
  "━━━ Examples ━━━" ::
    (Program.all.map fun program =>
      "  " ++ padRight 14 program.name ++ " " ++ program.description) ++
    ["", "━━━ Devices ━━━",
      "  onread:  " ++ " ".intercalate Registry.standard.readNames,
      "  onwrite: " ++ " ".intercalate Registry.standard.writeNames]

def bannerLines : List String :=
  ["OISC Move Machine v0.1.0", "A one-instruction computer: every instruction is a move", "",
    "Use --help for available commands"]

def usageLines : List String :=
  ["Usage: oisc-vm [COMMAND]", "", "Commands:",
    "  run <CONFIG> [--no-base] [-m N] [-i TEXT] [-t] [-d]",
    "  example <NAME> [-m N] [-i TEXT] [-t] [-d]",
    "  export <CONFIG> [--no-base] [--no-callbacks] [-o FILE]", "  list"]

def Report.misused : Report :=
  { exitCode := 2, errors := unlines ("error: invalid arguments" :: "" :: usageLines) }

section

variable {m : Type → Type} [Monad m]

/-- The configuration in a file, over the base layout unless told otherwise. -/
def fileConfig (files : FileAccess m) (path : String) (noBase : Bool) :
    m (Except ConfigError Config) := do
  match ← files.read path with
  | .error error => return .error (.inaccessible error.message)
  | .ok text => return do
    let config ← (← ConfigFile.parse text).toConfig .standard
    if noBase then return config
    return (← Program.layout .standard).merge config

def exportConfig (files : FileAccess m) (callbacks : Bool) (output : Option String)
    (config : Config) : m Report := do
  match Machine.ofConfig config with
  | .error error => return .failed [] ("Failed to load configuration: " ++ error.message)
  | .ok machine =>
    match ConfigFile.ofConfig (machine.toConfig callbacks) callbacks with
    | .error error => return .failed [] ("Failed to export: " ++ error.message)
    | .ok file =>
      match output with
      | none => return .done [file.render]
      | some path =>
        match ← files.write path (file.render ++ "\n") with
        | .ok _ => return .done ["✓ Saved " ++ toString file.size ++ " cells to " ++ path]
        | .error error =>
          return .failed [] ("Failed to save configuration: " ++
            (ConfigError.inaccessible error.message).message)

/-- Carries out a command, with triggers nested to a given depth at most. -/
def Command.execute (files : FileAccess m) (depth : Nat) : Command → m Report
  | .banner => return .done bannerLines
  | .version => return .done ["oisc-vm 0.1.0"]
  | .help => return .done usageLines
  | .list => return .done listLines
  | .runProgram name options =>
    match Program.ofName? name with
    | none => return .failed [] ("Unknown example: " ++ name ++ " (try `list`)")
    | some program =>
      let before := ["🔧 Running example: " ++ program.name]
      match program.config .standard with
      | .error error => return .failed before ("Failed to build example: " ++ error.message)
      | .ok config => return runConfig depth options before config
  | .runFile path noBase options => do
    match ← fileConfig files path noBase with
    | .error error => return .failed [] ("Failed to load configuration: " ++ error.message)
    | .ok config => return runConfig depth options [] config
  | .exportFile path noBase noCallbacks output => do
    match ← fileConfig files path noBase with
    | .error error => return .failed [] ("Failed to load configuration: " ++ error.message)
    | .ok config => exportConfig files (!noCallbacks) output config

def execute (files : FileAccess m) (depth : Nat) (arguments : List String) : m Report :=
  match Command.ofArgs? arguments with
  | none => return .misused
  | some command => command.execute files depth

end

end MoveMachine.CommandLine
