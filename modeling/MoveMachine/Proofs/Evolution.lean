import MoveMachine.Proofs.Reachable

/-!
How memories evolve. Whatever a machine is asked to do and whatever its triggers do, its memory
changes by one `Memory.Change` after another, and two things are known of them. A word is noted as
observed only where a read trigger is: the trigger that answered may have changed its own cell in
any way but this one, since no change takes a read trigger away. And lists of write triggers come
only from requests, configurations and scripts, so if these install lists of one kind only, no
other list is ever installed.

So what all such changes keep holds of whatever a machine comes to, whether it succeeds or fails.
-/

set_option autoImplicit false

namespace MoveMachine

namespace Memory

/--
Nothing is deleted between two memories: a value, a read trigger or the binding of a name may
give way to another, but not to none, and the clock does not go back.
-/
structure Persists (before after : Memory) : Prop where
  stored : ∀ address, before.stored address ≠ none → after.stored address ≠ none
  readTrigger : ∀ address, before.readTrigger address ≠ none → after.readTrigger address ≠ none
  bound : ∀ name, before.symbols.resolve name ≠ none → after.symbols.resolve name ≠ none
  clock : before.clock ≤ after.clock

namespace Persists

theorem refl (memory : Memory) : memory.Persists memory :=
  ⟨fun _ => id, fun _ => id, fun _ => id, Nat.le_refl _⟩

theorem trans {m n k : Memory} (first : m.Persists n) (second : n.Persists k) : m.Persists k where
  stored address there := second.stored address (first.stored address there)
  readTrigger address there := second.readTrigger address (first.readTrigger address there)
  bound name there := second.bound name (first.bound name there)
  clock := Nat.le_trans first.clock second.clock

theorem update (memory : Memory) (address : Address) {change : Cell → Cell}
    (spares : ∀ cell, (cell.stored ≠ none → (change cell).stored ≠ none) ∧
      (cell.onRead ≠ none → (change cell).onRead ≠ none)) :
    memory.Persists (memory.update address change) := by
  have cells := forall_cell_update
    (P := fun place cell => ((memory.cell place).stored ≠ none → cell.stored ≠ none) ∧
      ((memory.cell place).onRead ≠ none → cell.onRead ≠ none))
    (fun _ => ⟨id, id⟩) (spares (memory.cell address))
  exact ⟨fun place => (cells place).1, fun place => (cells place).2, fun _ => id, Nat.le_refl _⟩

end Persists

theorem Change.persists (change : Change) (memory : Memory) :
    memory.Persists (change.apply memory) := by
  cases change with
  | poke address value =>
    simp only [apply, Memory.poke]
    exact .update memory address fun _ => ⟨fun _ => Option.some_ne_none value, id⟩
  | observe address value =>
    simp only [apply, Memory.observe]
    exact .update memory address fun _ => ⟨id, id⟩
  | record address value =>
    -- The clock moves first, and then the cell is changed like any other.
    have stamped : Memory.Persists { memory with clock := memory.clock + 1 }
        (memory.record address value) := by
      simp only [Memory.record]
      exact .update _ address fun _ => ⟨fun _ => Option.some_ne_none value, id⟩
    exact ⟨stamped.stored, stamped.readTrigger, stamped.bound, Nat.le_succ _⟩
  | bind name address =>
    refine ⟨fun _ => id, fun _ => id, fun other there => ?_, Nat.le_refl _⟩
    simp only [apply, symbols_bind, SymbolTable.resolve_bind]
    split
    · exact Option.some_ne_none address
    · exact there
  | setReadTrigger address trigger =>
    simp only [apply, Memory.setReadTrigger]
    exact .update memory address fun _ => ⟨id, fun _ => Option.some_ne_none trigger⟩
  | addWriteTriggers address triggers overwrite =>
    simp only [apply, Memory.addWriteTriggers]
    exact .update memory address fun _ => ⟨id, id⟩

/--
A change as it is made: what is noted as observed was answered by a trigger, and a list of write
triggers is of a given kind.
-/
def Change.Fits (lists : List WriteTrigger → Prop) (memory : Memory) : Change → Prop
  | .observe address _ => memory.readTrigger address ≠ none
  | .addWriteTriggers _ triggers _ => lists triggers
  | _ => True

/-- What becomes of a memory by changes that fit, made one after another. -/
inductive Evolves (lists : List WriteTrigger → Prop) (start : Memory) : Memory → Prop
  | start : Evolves lists start start
  | change {memory : Memory} (change : Change) : Evolves lists start memory →
      change.Fits lists memory → Evolves lists start (change.apply memory)

namespace Evolves

variable {lists : List WriteTrigger → Prop} {start middle final : Memory}

theorem trans (first : Evolves lists start middle) (second : Evolves lists middle final) :
    Evolves lists start final := by
  induction second with
  | start => exact first
  | change change _ fits ih => exact ih.change change fits

/-- What every change keeps that fits is kept all along. -/
theorem keeps {P : Memory → Prop}
    (each : ∀ memory (change : Change), change.Fits lists memory → P memory →
      P (change.apply memory))
    (evolves : Evolves lists start final) (holds : P start) : P final := by
  induction evolves with
  | start => exact holds
  | change change _ fits ih => exact each _ change fits ih

theorem persists (evolves : Evolves lists start final) : start.Persists final :=
  evolves.keeps (fun memory change _ before => before.trans (change.persists memory)) (.refl start)

end Evolves

end Memory

/-- Lists of write triggers may be asked for if they are of a given kind, and all else anyway. -/
def Allowance.installing (lists : List WriteTrigger → Prop) : Allowance where
  change
    | .addWriteTriggers _ triggers _ => lists triggers
    | _ => True
  act _ := True

theorem Allowance.installing_any : installing (fun _ => True) = all := by
  unfold installing all
  congr
  funext change
  cases change <;> rfl

def World.Evolves (lists : List WriteTrigger → Prop) (before after : World) : Prop :=
  before.memory.Evolves lists after.memory

theorem World.Evolves.frame (lists : List WriteTrigger → Prop) :
    World.Frame (.installing lists) (World.Evolves lists) where
  refl _ := .start
  trans _ _ _ := Memory.Evolves.trans
  change world change direct allowed := by
    refine .change change .start ?_
    cases change with
    | observe | record => cases direct
    | addWriteTriggers => exact allowed
    | poke | bind | setReadTrigger => exact True.intro
  record _ address value := .change (.record address value) .start True.intro
  -- The trigger that answered has left a read trigger on its cell, itself or another.
  observe evolved address value triggered :=
    evolved.change (.observe address value) (evolved.persists.readTrigger address triggered)
  act _ _ _ := .start

theorem Request.evolves_of_perform {lists : List WriteTrigger → Prop} {wiring : Wiring}
    (respects : wiring.Respects (.installing lists)) {depth : Nat} {request : Request}
    (own : request.Respects (.installing lists)) {before after : System}
    {result : Except RequestError Reply}
    (performed : request.perform wiring depth before = some (result, after)) :
    before.machine.memory.Evolves lists after.machine.memory :=
  ((World.Evolves.frame lists).perform_keeps respects depth own _ _ _ performed).world

/--
A machine that some history of requests brings about in which every list of write triggers that
is installed, by a request, a configuration or a trigger, is of a given kind.
-/
inductive Machine.ReachableInstalling (lists : List WriteTrigger → Prop) : Machine → Prop
  | start (ipAddress : Address) : ReachableInstalling lists { ipAddress }
  | relocate {machine : Machine} (ipAddress : Address) :
      ReachableInstalling lists machine → ReachableInstalling lists { machine with ipAddress }
  | perform {machine : Machine} {after : System} {result : Except RequestError Reply}
      (wiring : Wiring) (depth : Nat) (request : Request) (host : Host) :
      ReachableInstalling lists machine → wiring.Respects (.installing lists) →
      request.Respects (.installing lists) →
      request.perform wiring depth ⟨machine, host⟩ = some (result, after) →
      ReachableInstalling lists after.machine

theorem Machine.Reachable.installing {machine : Machine} (reachable : machine.Reachable) :
    machine.ReachableInstalling fun _ => True := by
  induction reachable with
  | start ipAddress => exact .start ipAddress
  | relocate ipAddress _ ih => exact ih.relocate ipAddress
  | perform wiring depth request host _ performed ih =>
    have any := Allowance.installing_any
    exact ih.perform wiring depth request host (any ▸ wiring.respects_all)
      (any ▸ request.respects_all) performed

theorem Machine.ReachableInstalling.reachable {lists : List WriteTrigger → Prop}
    {machine : Machine} (reached : machine.ReachableInstalling lists) : machine.Reachable := by
  induction reached with
  | start ipAddress => exact .start ipAddress
  | relocate ipAddress _ ih => exact ih.relocate ipAddress
  | perform wiring depth request host _ _ _ performed ih =>
    exact ih.perform wiring depth request host performed

theorem Machine.ReachableInstalling.evolves {lists : List WriteTrigger → Prop} {machine : Machine}
    (reachable : machine.ReachableInstalling lists) :
    Memory.Evolves lists {} machine.memory := by
  induction reachable with
  | start ipAddress => exact .start
  | relocate ipAddress _ ih => exact ih
  | perform wiring depth request host _ respects own performed ih =>
    exact ih.trans (Request.evolves_of_perform respects own performed)

end MoveMachine
