import MoveMachine.Proofs.Keeping
import MoveMachine.Proofs.Stamps

set_option autoImplicit false

namespace MoveMachine

namespace Memory.Invariant

variable {P : Memory → Prop} (invariant : Invariant P)

include invariant

theorem frame : World.Frame .all fun before after => P before.memory → P after.memory where
  refl _ := id
  trans _ _ _ first second := second ∘ first
  change _ change _ _ holds := invariant.change holds change
  record _ address value holds := invariant.change holds (.record address value)
  observe kept address value _ holds := invariant.change (kept holds) (.observe address value)
  act _ _ _ := id

theorem perform {wiring : Wiring} {depth : Nat} {request : Request} {system after : System}
    {result : Except RequestError Reply} (holds : P system.machine.memory)
    (performed : request.perform wiring depth system = some (result, after)) :
    P after.machine.memory :=
  (invariant.frame.perform_keeps wiring.respects_all depth request.respects_all _ _ _
    performed).world holds

theorem fetch {wiring : Wiring} {depth : Nat} {ipAddress : Address} {world after : World}
    {result : Except MachineError Operands} (holds : P world.memory)
    (fetched : Machine.fetch wiring depth ipAddress world = some (result, after)) :
    P after.memory :=
  invariant.frame.fetch_keeps wiring.respects_all depth ipAddress _ _ _ fetched holds

theorem isHalted {wiring : Wiring} {depth : Nat} {system after : System}
    {result : Except MachineError Bool} (holds : P system.machine.memory)
    (looked : Machine.isHalted wiring depth system = some (result, after)) :
    P after.machine.memory :=
  (invariant.frame.isHalted_keeps wiring.respects_all depth _ _ _ looked).world holds

end Memory.Invariant

/-- A machine that some history of requests brings about. -/
inductive Machine.Reachable : Machine → Prop
  | start (ipAddress : Address) : Reachable { ipAddress }
  | relocate {machine : Machine} (ipAddress : Address) :
      Reachable machine → Reachable { machine with ipAddress }
  | perform {machine : Machine} {after : System} {result : Except RequestError Reply}
      (wiring : Wiring) (depth : Nat) (request : Request) (host : Host) :
      Reachable machine → request.perform wiring depth ⟨machine, host⟩ = some (result, after) →
      Reachable after.machine

theorem Machine.Reachable.poke {machine : Machine} (reachable : machine.Reachable)
    (address : Address) (value : Word) :
    Reachable { machine with memory := machine.memory.poke address value } :=
  reachable.perform {} 0 (.poke address value) {} rfl

theorem Machine.Reachable.addWriteTriggers {machine : Machine} (reachable : machine.Reachable)
    (address : Address) (triggers : List WriteTrigger) (overwrite : Bool) :
    Reachable { machine with
      memory := machine.memory.addWriteTriggers address triggers overwrite } :=
  reachable.perform {} 0 (.installWrites (.address address) triggers overwrite) {} rfl

/-- An invariant of memories that holds of the empty one holds of every reachable machine. -/
theorem Machine.Reachable.invariant {P : Memory → Prop} (invariant : Memory.Invariant P)
    (empty : P {}) {machine : Machine} (reachable : machine.Reachable) : P machine.memory := by
  induction reachable with
  | start ipAddress => exact empty
  | relocate ipAddress _ ih => exact ih
  | perform wiring depth request host _ performed ih => exact invariant.perform ih performed

theorem Machine.Reachable.stamped {machine : Machine} (reachable : machine.Reachable) :
    machine.memory.Stamped :=
  reachable.invariant Memory.stamped_invariant Memory.stamped_empty

end MoveMachine
