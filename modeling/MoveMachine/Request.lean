import MoveMachine.Config.Load

set_option autoImplicit false

namespace MoveMachine

inductive Request where
  | read (key : CellRef)
  | write (key : CellRef) (value : Word)
  | poke (place : Address) (value : Word)
  | bind (name : String) (place : Address)
  | installRead (key : CellRef) (trigger : ReadTrigger)
  | installWrites (key : CellRef) (triggers : List WriteTrigger) (overwrite : Bool)
  | configure (config : Config)
  | step
  | run (budget : Nat)
  deriving Inhabited

inductive Reply where
  | nothing
  | word (value : Word)
  | moved (made : Move)
  | count (steps : Nat)
  deriving DecidableEq, Inhabited

inductive RequestError where
  | memory (error : MemoryError)
  | machine (error : MachineError)
  | config (error : ConfigError)
  deriving DecidableEq, Inhabited

namespace Request

section Benches

variable {σ ω ε α : Type} [Bench σ ω]

def access (refuse : ε → RequestError) (reply : α → Reply) (access : Action ω ε α) :
    Action σ RequestError Reply := do
  return reply (← (access.mapError refuse).onSystem)

def operate (reply : α → Reply) (operation : Action σ MachineError α) :
    Action σ RequestError Reply := do
  return reply (← operation.mapError RequestError.machine)

variable [Stage ω]

def perform (wiring : Wiring) (depth : Nat) : Request → Action σ RequestError Reply
  | .read key => access .memory .word (Access.read wiring depth key)
  | .write key value => access .memory (fun _ => .nothing) (Access.write wiring depth key value)
  | .poke place value =>
    access .memory (fun _ => .nothing) (Access.changeMemory fun memory => memory.poke place value)
  | .bind name place =>
    access .memory (fun _ => .nothing) (Access.changeMemory fun memory => memory.bind name place)
  | .installRead key trigger =>
    access .memory (fun _ => .nothing) (Access.installRead key trigger)
  | .installWrites key triggers overwrite =>
    access .memory (fun _ => .nothing) (Access.installWrites key triggers overwrite)
  | .configure config => access .config (fun _ => .nothing) (Access.configure config)
  | .step => operate .moved (Machine.step wiring depth)
  | .run budget => operate .count (Machine.run wiring depth budget)

end Benches

theorem perform_configure (wiring : Wiring) (depth : Nat) (config : Config) (system : System) :
    (configure config).perform wiring depth system =
      match config.load system.machine.memory with
      | .ok memory => some (.ok .nothing, { system with machine := { system.machine with memory } })
      | .error error => some (.error (.config error), system) := by
  have loading : Access.configure config system.world =
      match config.load system.machine.memory with
      | .ok memory => some (.ok (), { system.world with memory })
      | .error error => some (.error error, system.world) := rfl
  rw [perform, access, Action.bind_apply, Action.onSystem_apply, Action.mapError, loading]
  cases config.load system.machine.memory <;> rfl

/-- Carries out a history of requests and gives what each is answered or refused with. -/
def performAll (wiring : Wiring) (depth : Nat) :
    List Request → System → Option (List (Except RequestError Reply) × System)
  | [], system => some ([], system)
  | request :: rest, system => do
    let (outcome, after) ← request.perform wiring depth system
    let (outcomes, final) ← performAll wiring depth rest after
    return (outcome :: outcomes, final)

end Request

end MoveMachine
