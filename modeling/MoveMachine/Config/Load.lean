import MoveMachine.Config.Basic
import MoveMachine.Machine

set_option autoImplicit false

namespace MoveMachine

namespace Config

def bindSymbols (config : Config) (memory : Memory) : Memory :=
  config.toList.foldl
    (fun memory entry => entry.2.symbols.foldl (fun memory name => memory.bind name entry.1) memory)
    memory

/--
Sets the values of a block, of which a number of items are already in place. An item past
the end of the address space is refused before its literal is looked at.
-/
def placeValues (base : Address) :
    Nat → List Literal → Memory → Except ConfigError Memory
  | _, [], memory => .ok memory
  | placed, literal :: rest, memory =>
    match Address.ofNat? (base.toNat + placed) with
    | none => .error (.malformedBlock base)
    | some target => do
      let word ← literal.resolve memory.symbols
      placeValues base (placed + 1) rest (memory.poke target word)

def installTriggers (address : Address) (cell : CellConfig) (memory : Memory) : Memory :=
  let memory := match cell.onRead with
    | some trigger => memory.setReadTrigger address trigger
    | none => memory
  match cell.onWrite with
  | some triggers => memory.addWriteTriggers address triggers true
  | none => memory

/-- Sets the initial content of a cell. Computed content replaces the read trigger. -/
def placeValue (address : Address) :
    Option CellValue → Memory → Except ConfigError Memory
  | none, memory => .ok memory
  | some (.computed trigger), memory => .ok (memory.setReadTrigger address trigger)
  | some (.literal literal), memory =>
    (literal.resolve memory.symbols).map fun word => memory.poke address word

/-- Applies one description: its triggers, its value, then its block. -/
def applyCell (address : Address) (cell : CellConfig) (memory : Memory) :
    Except ConfigError Memory := do
  let memory ← placeValue address cell.value (installTriggers address cell memory)
  match cell.values with
  | none => return memory
  | some block => placeValues address 0 (block.valuesAt address) memory

/--
Loads a configuration into memory. Symbols are bound before any value is looked at, so a
reference may name a symbol of any other description. Values are set without running triggers.
-/
def load (config : Config) (memory : Memory) : Except ConfigError Memory :=
  config.toList.foldlM (fun memory entry => applyCell entry.1 entry.2 memory)
    (config.bindSymbols memory)

def cellOfMemory (memory : Memory) (callbacks : Bool) (address : Address) : CellConfig :=
  let bare : CellConfig :=
    { symbols := memory.symbols.aliasesOf address
      value := (memory.stored address).map fun word => .literal (.number word) }
  if callbacks then
    { bare with
      onRead := memory.readTrigger address
      onWrite := match memory.writeTriggers address with
        | [] => none
        | triggers => some triggers }
  else bare

def ofMemory (memory : Memory) (callbacks : Bool) : Config :=
  .ofList <| memory.addresses.filterMap fun address =>
    let cell := cellOfMemory memory callbacks address
    if cell.isEmpty then none else some (address, cell)

end Config

/-- Loads a configuration into the memory of a stage. A load that fails leaves it as it was. -/
def Access.configure {σ : Type} [Stage σ] (config : Config) : Action σ ConfigError Unit :=
  fun state =>
    match config.load (Stage.world state).memory with
    | .ok memory => some (.ok (), Stage.changeMemory (fun _ => memory) state)
    | .error error => some (.error error, state)

namespace Machine

def ofMemory (memory : Memory) : Machine := { memory }

def ofConfig (config : Config) : Except ConfigError Machine :=
  (config.load {}).map ofMemory

def toConfig (machine : Machine) (callbacks : Bool) : Config :=
  .ofMemory machine.memory callbacks

end Machine

end MoveMachine
