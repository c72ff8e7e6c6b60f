import MoveMachine.Proofs.CellSimulation
import MoveMachine.Proofs.MachineSimulation

set_option autoImplicit false

namespace MoveMachine

/-- Cells that differ at most in their observed values and beneath a read trigger. -/
structure Cell.Veiled (left right : Cell) : Prop where
  onRead : left.onRead = right.onRead
  onWrite : left.onWrite = right.onWrite
  writtenAt : left.writtenAt = right.writtenAt
  stored : left.onRead = none → left.stored = right.stored

/-- Memories with one clock that differ at most in observed values and beneath read triggers. -/
def Memory.Veiled (left right : Memory) : Prop := Memory.Cellwise 0 Cell.Veiled left right

theorem Cell.veiled_simulation : Cell.Simulation 0 Cell.Veiled where
  onRead veiled := veiled.onRead
  onWrite veiled := veiled.onWrite
  stored veiled := veiled.stored
  writtenAt veiled := veiled.writtenAt.symm
  poke veiled _ := ⟨veiled.onRead, veiled.onWrite, veiled.writtenAt, fun _ => rfl⟩
  observe veiled _ := ⟨veiled.onRead, veiled.onWrite, veiled.writtenAt, veiled.stored⟩
  record veiled _ _ := ⟨veiled.onRead, veiled.onWrite, rfl, fun _ => rfl⟩
  setReadTrigger veiled _ := ⟨rfl, veiled.onWrite, veiled.writtenAt, nofun⟩
  addWriteTriggers veiled _ := ⟨veiled.onRead, rfl, veiled.writtenAt, veiled.stored⟩

theorem Memory.veiled_poke {memory : Memory} {address : Address} {trigger : ReadTrigger}
    (triggered : memory.readTrigger address = some trigger) (value other : Word) :
    (memory.poke address value).Veiled (memory.poke address other) := by
  refine ⟨rfl, rfl, fun place => ?_⟩
  simp only [cell_poke]
  split
  · refine ⟨rfl, rfl, rfl, fun untriggered => ?_⟩
    have found : (memory.cell address).onRead = some trigger := triggered
    rw [found] at untriggered
    cases untriggered
  · exact ⟨rfl, rfl, rfl, fun _ => rfl⟩

/--
Two machines whose memories differ only beneath read triggers and in observed values reply
alike to every history, do the same to the host, and still differ only there. The triggers are
scripts, so none of them ever looks at the raw word under a read trigger, at an observed word, at
a stamp or at the clock.
-/
theorem Request.performAll_veiled (wiring : Wiring) (depth : Nat) (requests : List Request)
    (host : Host) {left right : Machine} (samePlace : left.ipAddress = right.ipAddress)
    (veiled : left.memory.Veiled right.memory) :
    Indistinguishable Memory.Veiled (performAll wiring depth requests ⟨left, host⟩)
      (performAll wiring depth requests ⟨right, host⟩) := by
  apply performAll_alike Cell.veiled_simulation.memory
  exact ⟨samePlace, veiled, rfl⟩

/-- Whether 1 or -1 lies beneath a trigger that answers 7, a move from its cell moves 7. -/
theorem Request.performAll_veiled_source :
    let triggered := ((({} : Memory).poke 0 2).poke 2 5).poke 3 6 |>.setReadTrigger 5 ⟨none, 0⟩
    let left : Machine := { memory := triggered.poke 5 1 }
    let right : Machine := { memory := triggered.poke 5 (-1) }
    left.memory.stored 5 ≠ right.memory.stored 5 ∧
      Indistinguishable Memory.Veiled
        (performAll { reads := #[.done 7] } 1 [.step, .read (.address 6)] ⟨left, {}⟩)
        (performAll { reads := #[.done 7] } 1 [.step, .read (.address 6)] ⟨right, {}⟩) := by
  intro triggered left right
  have hidden : triggered.readTrigger 5 = some ⟨none, 0⟩ := by decide
  refine ⟨by decide, ?_⟩
  exact performAll_veiled _ 1 _ {} rfl (Memory.veiled_poke hidden 1 (-1))

end MoveMachine
