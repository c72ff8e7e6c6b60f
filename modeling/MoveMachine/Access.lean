import MoveMachine.Action
import MoveMachine.Memory

/-!
Access to memory with triggers. Reading a cell runs its read trigger, writing one runs its
write triggers, and the scripts of triggers read and write in turn. Triggers nest, so every
access takes the depth to which they may: an access that needs more has no outcome at all,
and one that has an outcome has the same for every greater depth.

An access acts on a `World`, memory together with the host, or on a `Stage` that holds a world
and keeps an account of the writes beside it. It may fail, and then keeps what was done before
the failure.
-/

set_option autoImplicit false

namespace MoveMachine

structure World where
  memory : Memory
  host : Host
  deriving Inhabited

/--
A state that holds a world. Whatever else it holds is an account of the writes, which no access
looks at.
-/
class Stage (σ : Type) where
  world : σ → World
  setWorld : World → σ → σ
  noteWrite : Address → σ → σ
  world_setWorld : ∀ (other : World) state, world (setWorld other state) = other
  setWorld_world : ∀ state, setWorld (world state) state = state
  setWorld_setWorld : ∀ first second state,
    setWorld second (setWorld first state) = setWorld second state

namespace Stage

@[default_instance]
instance ofWorld : Stage World where
  world world := world
  setWorld world _ := world
  noteWrite _ world := world
  world_setWorld _ _ := rfl
  setWorld_world _ := rfl
  setWorld_setWorld _ _ _ := rfl

@[simp] theorem world_self (self : World) : world self = self := rfl

variable {σ : Type} [Stage σ]

def changeMemory (change : Memory → Memory) (state : σ) : σ :=
  setWorld { world state with memory := change (world state).memory } state

def changeHost (change : Host → Host) (state : σ) : σ :=
  setWorld { world state with host := change (world state).host } state

def record (address : Address) (value : Word) (state : σ) : σ :=
  noteWrite address (changeMemory (fun memory => memory.record address value) state)

end Stage

abbrev Access (ε : Type) := Action World ε

namespace Access

variable {σ ε : Type} [Stage σ]

def resolve (key : CellRef) : Action σ MemoryError Address :=
  fun state => some ((Stage.world state).memory.resolve key, state)

theorem resolve_apply (key : CellRef) (world : World) :
    resolve key world = some (world.memory.resolve key, world) := rfl

def changeMemory (change : Memory → Memory) : Action σ ε Unit :=
  fun state => some (.ok (), Stage.changeMemory change state)

def onHost (act : Host → Word × Host) : Action σ ε Word :=
  fun state => some (.ok (act (Stage.world state).host).1,
    Stage.changeHost (fun host => (act host).2) state)

def record (address : Address) (value : Word) : Action σ ε Unit :=
  fun state => some (.ok (), Stage.record address value state)

theorem record_apply (address : Address) (value : Word) (world : World) :
    record (ε := ε) address value world =
      some (.ok (), { world with memory := world.memory.record address value }) := rfl

def installRead (key : CellRef) (trigger : ReadTrigger) : Action σ MemoryError Unit := do
  let address ← resolve key
  changeMemory fun memory => memory.setReadTrigger address trigger

def installWrites (key : CellRef) (triggers : List WriteTrigger) (overwrite : Bool) :
    Action σ MemoryError Unit := do
  let address ← resolve key
  changeMemory fun memory => memory.addWriteTriggers address triggers overwrite

/--
Reads a cell, given what its trigger does when it runs. The reference is resolved once,
before the trigger runs, and the trigger's answer is noted at that address.
-/
def readVia (call : ReadTrigger → Action σ MemoryError Word) (key : CellRef) :
    Action σ MemoryError Word := do
  let address ← resolve key
  let state ← get
  match (Stage.world state).memory.readTrigger address with
  | none => return (Stage.world state).memory.peek address
  | some trigger =>
    let value ← call trigger
    changeMemory fun memory => memory.observe address value
    return value

/--
Writes a cell, given what its triggers do when they run. The value is recorded first. The
triggers that run are those on the cell at that moment, in order, up to the first that fails.
-/
def writeVia (call : WriteTrigger → Word → Action σ MemoryError Unit) (key : CellRef)
    (value : Word) : Action σ MemoryError Unit := do
  let address ← resolve key
  record address value
  let state ← get
  ((Stage.world state).memory.writeTriggers address).forM fun trigger => call trigger value

/-- Carries out a script, given what the triggers do that its reads and writes set off. -/
def followVia (callRead : ReadTrigger → Action σ MemoryError Word)
    (callWrite : WriteTrigger → Word → Action σ MemoryError Unit) :
    Script → Action σ MemoryError Word
  | .done answer => return answer
  | .fail error => throw error
  | .read key next => do
    followVia callRead callWrite (next (← Action.outcome (readVia callRead key)))
  | .write key value next => do
    followVia callRead callWrite (next (← Action.outcome (writeVia callWrite key value)))
  | .poke address value next => do
    changeMemory fun memory => memory.poke address value
    followVia callRead callWrite next
  | .bind name address next => do
    changeMemory fun memory => memory.bind name address
    followVia callRead callWrite next
  | .onRead key trigger next => do
    followVia callRead callWrite (next (← Action.outcome (installRead key trigger)))
  | .onWrite key triggers overwrite next => do
    followVia callRead callWrite (next (← Action.outcome (installWrites key triggers overwrite)))
  | .host act next => do followVia callRead callWrite (next (← onHost act))

/-- Carries out a script under a wiring, with triggers nested to a given depth at most. -/
def follow (wiring : Wiring) : Nat → Script → Action σ MemoryError Word
  | 0, _ => Action.exhausted
  | depth + 1, script =>
    followVia (fun trigger => follow wiring depth (wiring.onRead trigger))
      (fun trigger value => discard (follow wiring depth (wiring.onWrite trigger value))) script

def callRead (wiring : Wiring) (depth : Nat) (trigger : ReadTrigger) : Action σ MemoryError Word :=
  follow wiring depth (wiring.onRead trigger)

def callWrite (wiring : Wiring) (depth : Nat) (trigger : WriteTrigger) (value : Word) :
    Action σ MemoryError Unit :=
  discard (follow wiring depth (wiring.onWrite trigger value))

def read (wiring : Wiring) (depth : Nat) : CellRef → Action σ MemoryError Word :=
  readVia (callRead wiring depth)

def write (wiring : Wiring) (depth : Nat) : CellRef → Word → Action σ MemoryError Unit :=
  writeVia (callWrite wiring depth)

end Access

end MoveMachine
