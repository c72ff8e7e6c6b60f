import MoveMachine.Proofs.Simulation

set_option autoImplicit false

namespace MoveMachine.Memory

/-- No write lies between two memories: the clock and every stamp are the same. -/
structure Quiet (before after : Memory) : Prop where
  clock : after.clock = before.clock
  writtenAt : ∀ address, (after.cell address).writtenAt = (before.cell address).writtenAt

namespace Quiet

theorem refl (memory : Memory) : memory.Quiet memory := ⟨rfl, fun _ => rfl⟩

theorem update (memory : Memory) (address : Address) {change : Cell → Cell}
    (keeps : ∀ cell, (change cell).writtenAt = cell.writtenAt) :
    memory.Quiet (memory.update address change) := by
  have stamps := forall_cell_update
    (P := fun place cell => cell.writtenAt = (memory.cell place).writtenAt) (fun _ => rfl)
    (keeps (memory.cell address))
  exact ⟨clock_update .., stamps⟩

end Quiet

def Change.isSilent : Change → Bool
  | .record _ _ => false
  | _ => true

theorem Change.quiet (change : Change) (silent : change.isSilent = true) (memory : Memory) :
    memory.Quiet (change.apply memory) := by
  cases change with
  | record address value => cases silent
  | poke address value =>
    simp only [apply, Memory.poke]
    exact Quiet.update memory address fun _ => rfl
  | observe address value =>
    simp only [apply, Memory.observe]
    exact Quiet.update memory address fun _ => rfl
  | bind name address => exact ⟨rfl, fun _ => rfl⟩
  | setReadTrigger address trigger =>
    simp only [apply, Memory.setReadTrigger]
    exact Quiet.update memory address fun _ => rfl
  | addWriteTriggers address triggers overwrite =>
    simp only [apply, Memory.addWriteTriggers]
    exact Quiet.update memory address fun _ => rfl

/-- No cell was written later than the clock shows. -/
def Stamped (memory : Memory) : Prop :=
  ∀ address, (memory.cell address).writtenAt ≤ memory.clock

theorem stamped_empty : Stamped {} := by
  intro address
  exact Nat.le_of_eq (congrArg Cell.writtenAt (cell_empty address))

theorem Stamped.quiet {before after : Memory} (stamped : before.Stamped)
    (quiet : before.Quiet after) : after.Stamped := by
  intro address
  rw [quiet.clock, quiet.writtenAt]
  exact stamped address

theorem Stamped.record {memory : Memory} (stamped : memory.Stamped) (address : Address)
    (value : Word) : (memory.record address value).Stamped := by
  intro place
  have before := stamped place
  rw [cell_record, clock_record]
  by_cases same : address = place
  · exact Nat.le_of_eq (congrArg Cell.writtenAt (if_pos same))
  · rw [if_neg same]
    omega

/-- Since just before a write, only the cell that it was made to was written. -/
theorem Stamped.writtenSince_record {memory : Memory} (stamped : memory.Stamped)
    (target place : Address) (value : Word) :
    (memory.record target value).writtenSince place memory.clock = true ↔ target = place := by
  have before := stamped place
  simp only [writtenSince, cell_record, decide_eq_true_eq]
  by_cases same : target = place
  · simp [same]
  · simp [same, Nat.not_lt.2 before]

theorem stamped_invariant : Invariant Stamped where
  change := by
    intro memory stamped change
    cases silent : change.isSilent with
    | true => exact stamped.quiet (change.quiet silent memory)
    | false =>
      cases change with
      | record address value => exact stamped.record address value
      | _ => cases silent

end MoveMachine.Memory
