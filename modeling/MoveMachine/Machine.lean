import MoveMachine.Access

/-!
The move machine. Its one instruction is a pair of cells at the instruction pointer: the
value read through the first is written through the second. The instruction pointer is a
cell like any other, so writing it is a jump; a move that leaves it alone advances it by two.

`Machine.step` makes one move and `Machine.run` makes moves until the machine halts or its
budget is spent.
-/

set_option autoImplicit false

namespace MoveMachine

structure Move where
  /-- Where the move was fetched from. -/
  ip : Address
  /-- Where the value was read. -/
  source : Address
  /-- Where the value was written. -/
  target : Address
  value : Word
  /-- True if the move wrote the instruction pointer, so that it did not advance. -/
  jumped : Bool
  deriving DecidableEq, Inhabited

/-- What is known of a move once it is fetched. -/
structure Operands where
  /-- What the instruction pointer read. -/
  ipWord : Word
  /-- The address of the first of the two cells that hold the move. -/
  ip : Address
  source : Address
  target : Address
  deriving DecidableEq, Inhabited

def Operands.made (operands : Operands) (value : Word) (jumped : Bool) : Move :=
  { ip := operands.ip, source := operands.source, target := operands.target, value, jumped }

inductive MachineError where
  | halted
  | budgetExhausted (steps : Nat)
  | invalidAddress (word : Word)
  | memory (error : MemoryError)
  deriving DecidableEq, Inhabited

def MachineError.message : MachineError → String
  | .halted => "machine halted: instruction pointer reads 0"
  | .budgetExhausted steps =>
    "step budget exhausted after " ++ toString steps ++ " steps without halting"
  | .invalidAddress word => "invalid address: " ++ Decimal.ofWord word
  | .memory error => "memory error: " ++ error.message

structure Machine where
  memory : Memory := {}
  ipAddress : Address := 0
  /-- The number of moves made. Like the clock it has no bound, as 2^64 moves are out of reach. -/
  steps : Nat := 0
  lastMove : Option Move := none
  deriving Inhabited

/-- A machine at work on its host. -/
structure System where
  machine : Machine
  host : Host
  deriving Inhabited

abbrev Operation (ε : Type) := Action System ε

def System.world (system : System) : World := ⟨system.machine.memory, system.host⟩

def System.setWorld (world : World) (system : System) : System :=
  { machine := { system.machine with memory := world.memory }, host := world.host }

def Machine.count (machine : Machine) (made : Move) : Machine :=
  { machine with steps := machine.steps + 1, lastMove := some made }

/-- A state that holds a machine at work, whose accesses act on a stage that it holds as well. -/
class Bench (σ : Type) (ω : outParam Type) where
  ipAddress : σ → Address
  count : Move → σ → σ
  stage : σ → ω
  setStage : ω → σ → σ
  stage_setStage : ∀ (other : ω) state, stage (setStage other state) = other
  ipAddress_setStage : ∀ (other : ω) state, ipAddress (setStage other state) = ipAddress state
  stage_count : ∀ (made : Move) state, stage (count made state) = stage state
  ipAddress_count : ∀ (made : Move) state, ipAddress (count made state) = ipAddress state

@[default_instance]
instance System.bench : Bench System World where
  ipAddress system := system.machine.ipAddress
  count made system := { system with machine := system.machine.count made }
  stage := System.world
  setStage := System.setWorld
  stage_setStage _ _ := rfl
  ipAddress_setStage _ _ := rfl
  stage_count _ _ := rfl
  ipAddress_count _ _ := rfl

theorem System.ipAddress_bench (system : System) :
    Bench.ipAddress system = system.machine.ipAddress := rfl

def Action.onSystem {σ ω ε α : Type} [Bench σ ω] (access : Action ω ε α) : Action σ ε α :=
  access.focus Bench.stage Bench.setStage

theorem Action.onSystem_apply {ε α : Type} (access : Access ε α) (system : System) :
    access.onSystem system =
      (access system.world).map fun outcome => (outcome.1, system.setWorld outcome.2) := rfl

namespace Machine

def toAddress {σ : Type} (word : Word) : Action σ MachineError Address :=
  match Address.ofWord? word with
  | some address => pure address
  | none => throw (.invalidAddress word)

section Stages

variable {σ : Type} [Stage σ]

def readCell (wiring : Wiring) (depth : Nat) (address : Address) : Action σ MachineError Word :=
  (Access.read wiring depth address).mapError .memory

def writeCell (wiring : Wiring) (depth : Nat) (address : Address) (value : Word) :
    Action σ MachineError Unit :=
  (Access.write wiring depth address value).mapError .memory

def advance (wiring : Wiring) (depth : Nat) (ipAddress : Address) (ipWord : Word) :
    Action σ MachineError Unit :=
  match Word.ofInt? (ipWord.toInt + 2) with
  | some next => writeCell wiring depth ipAddress next
  | none => throw (.invalidAddress ipWord)

/--
Fetches the move at the instruction pointer: where it was found, where it reads and where it
writes. A machine whose instruction pointer reads 0 has halted.
-/
def fetch (wiring : Wiring) (depth : Nat) (ipAddress : Address) :
    Action σ MachineError Operands := do
  let ipWord ← readCell wiring depth ipAddress
  if ipWord = 0 then throw .halted
  else
    let ip ← toAddress ipWord
    let source ← toAddress (← readCell wiring depth ip)
    let target ← toAddress (← readCell wiring depth (ip + 1))
    return { ipWord, ip, source, target }

def transfer (wiring : Wiring) (depth : Nat) (source target : Address) :
    Action σ MachineError Word := do
  let value ← readCell wiring depth source
  writeCell wiring depth target value
  return value

/--
Makes the move at the instruction pointer. The pointer advances last, and only if its cell
was not written between the fetch of the operands and the end of the move.
-/
def move (wiring : Wiring) (depth : Nat) (ipAddress : Address) : Action σ MachineError Move := do
  let operands ← fetch wiring depth ipAddress
  let fetched ← get
  let value ← transfer wiring depth operands.source operands.target
  let moved ← get
  if (Stage.world moved).memory.writtenSince ipAddress (Stage.world fetched).memory.clock then
    return operands.made value true
  else
    advance wiring depth ipAddress operands.ipWord
    return operands.made value false

end Stages

section Benches

variable {σ ω : Type} [Bench σ ω] [Stage ω]

/-- Makes one move. A move that fails is not counted. -/
def step (wiring : Wiring) (depth : Nat) : Action σ MachineError Move := do
  let bench ← get
  let made ← (move wiring depth (Bench.ipAddress bench)).onSystem
  modify (Bench.count made)
  return made

def ip (wiring : Wiring) (depth : Nat) : Action σ MachineError Word := do
  let bench ← get
  (readCell wiring depth (Bench.ipAddress bench)).onSystem

def isHalted (wiring : Wiring) (depth : Nat) : Action σ MachineError Bool := do
  return (← ip wiring depth) = 0

/--
Makes moves until the machine halts, fails or has made as many as the budget allows, and
counts them. A machine that halts with its last allowed move has halted.
-/
def run (wiring : Wiring) (depth : Nat) (budget : Nat) : Action σ MachineError Nat :=
  go budget 0
where
  /-- Goes on after a number of moves with what is left of the budget. -/
  go : Nat → Nat → Action σ MachineError Nat
    | 0, made => do
      let halted ← isHalted wiring depth
      if halted then return made else throw (.budgetExhausted made)
    | budget + 1, made => fun bench =>
      match step wiring depth bench with
      | none => none
      | some (.ok _, after) => go budget (made + 1) after
      | some (.error .halted, after) => some (.ok made, after)
      | some (.error error, after) => some (.error error, after)

/-- The outcomes of single moves, up to a number of them or the first that fails. -/
def trace (wiring : Wiring) (depth : Nat) : Nat → Action σ MachineError
    (List (Except MachineError Move))
  | 0 => return []
  | budget + 1 => do
    match ← Action.outcome (step wiring depth) with
    | .ok made => return .ok made :: (← trace wiring depth budget)
    | .error error => return [.error error]

end Benches

section Systems

variable {wiring : Wiring} {depth : Nat}

/-- A move that has transferred its value jumps or advances, as the stamp of the pointer tells. -/
theorem move_of_transfer {ipAddress : Address} {world fetched moved : World} {operands : Operands}
    {value : Word} (isFetched : fetch wiring depth ipAddress world = some (.ok operands, fetched))
    (isMoved : transfer wiring depth operands.source operands.target fetched =
      some (.ok value, moved)) :
    move wiring depth ipAddress world =
      if moved.memory.writtenSince ipAddress fetched.memory.clock then
        some (.ok (operands.made value true), moved)
      else
        (advance wiring depth ipAddress operands.ipWord >>= fun _ =>
          pure (operands.made value false)) moved := by
  rw [move, Action.bind_of_ok isFetched, Action.get_bind_apply, Action.bind_of_ok isMoved,
    Action.get_bind_apply, Stage.world_self, Stage.world_self]
  split <;> rfl

variable (system : System)

theorem step_eq :
    step wiring depth system =
      (move wiring depth system.machine.ipAddress system.world).map fun outcome =>
        (outcome.1, match outcome.1 with
          | .ok made => { machine := (system.setWorld outcome.2).machine.count made
                          host := outcome.2.host }
          | .error _ => system.setWorld outcome.2) := by
  rw [step, Action.get_bind_apply, Action.bind_apply, Action.onSystem_apply,
    System.ipAddress_bench]
  cases move wiring depth system.machine.ipAddress system.world with
  | none => rfl
  | some outcome =>
    obtain ⟨result, world⟩ := outcome
    cases result <;> rfl

theorem ip_eq :
    ip wiring depth system =
      (readCell wiring depth system.machine.ipAddress system.world).map fun outcome =>
        (outcome.1, system.setWorld outcome.2) := rfl

theorem isHalted_eq :
    isHalted wiring depth system =
      (readCell wiring depth system.machine.ipAddress system.world).map fun outcome =>
        (outcome.1.map fun word => decide (word = 0), system.setWorld outcome.2) := by
  rw [isHalted, Action.bind_apply, ip_eq]
  cases readCell wiring depth system.machine.ipAddress system.world with
  | none => rfl
  | some outcome =>
    obtain ⟨result, world⟩ := outcome
    cases result <;> rfl

end Systems

def describeMove (made : Move) : String :=
  Text.Inline.record "Move"
    [("ip", Decimal.ofAddress made.ip), ("src", Decimal.ofAddress made.source),
      ("dst", Decimal.ofAddress made.target), ("value", Decimal.ofWord made.value),
      ("jumped", toString made.jumped)]

def describe (machine : Machine) : String :=
  Text.Inline.record "Machine"
    [("mem", machine.memory.describe), ("ip_addr", Decimal.ofAddress machine.ipAddress),
      ("steps", toString machine.steps),
      ("last_move", Text.Inline.optional (machine.lastMove.map describeMove))]

end Machine

end MoveMachine
