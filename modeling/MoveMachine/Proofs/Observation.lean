import MoveMachine.Proofs.Devices
import MoveMachine.Proofs.Evolution

/-!
What was last observed of a cell. Without a read trigger it is what the cell holds: both are set
together, and only the answer of a read trigger is noted on its own, at a cell that has a trigger
before the call and therefore after it. So the two differ at computed cells only, in every state
that a machine comes to, though a trigger may do to its own cell what it likes while it answers.
-/

set_option autoImplicit false

namespace MoveMachine

/-- A cell observed to hold what it holds, if nothing computes it, and stamped only if written. -/
structure Cell.Coherent (cell : Cell) : Prop where
  observed : cell.onRead = none → cell.observed = cell.stored
  writtenAt : cell.stored = none → cell.writtenAt = 0

theorem Memory.Change.coherent {lists : List WriteTrigger → Prop} {memory : Memory}
    (coherent : ∀ place, (memory.cell place).Coherent) (change : Change)
    (fits : change.Fits lists memory) (place : Address) :
    ((change.apply memory).cell place).Coherent := by
  have updated : ∀ {address : Address} {change : Cell → Cell},
      (change (memory.cell address)).Coherent →
      ((memory.update address change).cell place).Coherent := by
    intro address change changed
    exact forall_cell_update (P := fun _ cell => cell.Coherent) coherent changed place
  cases change with
  | poke address value => exact updated ⟨fun _ => rfl, nofun⟩
  | observe address value =>
    exact updated ⟨fun untriggered => absurd untriggered fits, (coherent address).writtenAt⟩
  | record address value =>
    have ticked : ∀ place, (({ memory with clock := memory.clock + 1 } : Memory).cell
        place).Coherent := coherent
    have recorded : Cell.Coherent { memory.cell address with
        stored := some value, observed := some value, writtenAt := memory.clock + 1 } :=
      ⟨fun _ => rfl, nofun⟩
    exact forall_cell_update (P := fun _ cell => cell.Coherent) ticked recorded place
  | bind name address => exact coherent place
  | setReadTrigger address trigger => exact updated ⟨nofun, (coherent address).writtenAt⟩
  | addWriteTriggers address triggers overwrite =>
    exact updated ⟨(coherent address).observed, (coherent address).writtenAt⟩

theorem Memory.Evolves.coherent {lists : List WriteTrigger → Prop} {memory : Memory}
    (evolves : Evolves lists {} memory) (address : Address) : (memory.cell address).Coherent := by
  refine evolves.keeps (P := fun memory => ∀ place, (memory.cell place).Coherent) ?_ ?_ address
  · intro memory change fits coherent
    exact change.coherent coherent fits
  · intro place
    rw [cell_empty]
    exact ⟨fun _ => rfl, fun _ => rfl⟩

namespace Access

theorem readVia_eq_ok {call : ReadTrigger → Access MemoryError Word} {key : CellRef}
    {before after : World} {value : Word}
    (answered : readVia call key before = some (.ok value, after)) :
    ∃ address, before.memory.resolve key = .ok address ∧
      (before.memory.readTrigger address = none ∧ after = before ∧
          value = before.memory.peek address ∨
        ∃ trigger between, before.memory.readTrigger address = some trigger ∧
          call trigger before = some (.ok value, between) ∧
          after = { between with memory := between.memory.observe address value }) := by
  obtain ⟨address, world, resolved, answered⟩ := Action.bind_eq_ok.1 answered
  simp only [resolve, Option.some.injEq, Prod.mk.injEq] at resolved
  obtain ⟨resolved, rfl⟩ := resolved
  refine ⟨address, resolved, ?_⟩
  rw [Action.get_bind_apply, Stage.world_self] at answered
  cases found : before.memory.readTrigger address with
  | none =>
    rw [found] at answered
    cases answered
    exact .inl ⟨rfl, rfl, rfl⟩
  | some trigger =>
    rw [found] at answered
    obtain ⟨answer, between, called, noted⟩ := Action.bind_eq_ok.1 answered
    cases noted
    exact .inr ⟨trigger, between, rfl, called, rfl⟩

/--
In what can be reached, every cell without a read trigger was last observed to hold what it holds.
A read of such a cell answers with its raw word, 0 if there is none, and changes nothing at all.
A read of a cell with a trigger answers with what is observed of the cell from then on, whatever
the trigger has done to this cell, or to the name by which it was read.
-/
theorem observed_unless_computed :
    (∀ machine : Machine, machine.Reachable → ∀ address,
      machine.memory.readTrigger address = none →
        machine.memory.observed address = machine.memory.stored address) ∧
    ∀ (wiring : Wiring) (depth : Nat) (key : CellRef) (before after : World) (value : Word),
      read wiring depth key before = some (.ok value, after) →
      ∃ address, before.memory.resolve key = .ok address ∧
        (before.memory.readTrigger address = none →
          after = before ∧ value = (before.memory.stored address).getD 0) ∧
        (before.memory.readTrigger address ≠ none →
          after.memory.observed address = some value) := by
  constructor
  · intro machine reachable address untriggered
    exact (reachable.installing.evolves.coherent address).observed untriggered
  · intro wiring depth key before after value answered
    obtain ⟨address, resolved, plain | computed⟩ := readVia_eq_ok answered
    · obtain ⟨untriggered, same, raw⟩ := plain
      exact ⟨address, resolved, fun _ => ⟨same, raw⟩, fun triggered => absurd untriggered triggered⟩
    · obtain ⟨trigger, between, triggered, -, rfl⟩ := computed
      refine ⟨address, resolved, fun untriggered => ?_, fun _ => ?_⟩
      · cases untriggered.symm.trans triggered
      · simp [Memory.observed]

/--
A trigger that is read by a name binds the name elsewhere, sets its own cell, puts another trigger
in its place and then answers 7. This is what was observed of the cell, which holds 9.
-/
theorem observed_unless_computed_reentrant :
    let wiring : Wiring := { reads := #[.bind "x" 6 <| .poke 5 9 <|
      .onRead (.address 5) ⟨none, 1⟩ fun _ => .done 7] }
    let memory := ((({} : Memory).poke 4 3).bind "x" 5).setReadTrigger 5 ⟨none, 0⟩
    memory.observed 4 = some 3 ∧
      ∃ after, read wiring 1 (.name "x") ⟨memory, {}⟩ = some (.ok 7, after) ∧
        after.memory.observed 5 = some 7 ∧ after.memory.stored 5 = some 9 ∧
        after.memory.resolve (.name "x") = .ok 6 := by
  intro wiring memory
  obtain ⟨plain, computed⟩ := observed_unless_computed
  have reachable : Machine.Reachable { memory } :=
    (((Machine.Reachable.start 0).poke 4 3).perform {} 0 (.bind "x" 5) {} rfl).perform {} 0
      (.installRead (.address 5) ⟨none, 0⟩) {} rfl
  have observed : memory.observed 4 = some 3 := by
    rw [plain { memory } reachable 4 (by decide)]
    decide
  have ran : (read wiring 1 (.name "x") ⟨memory, {}⟩).map (fun outcome =>
      (outcome.1, outcome.2.memory.stored 5, outcome.2.memory.resolve (.name "x"))) =
      some (.ok 7, some 9, .ok 6) := by
    decide
  obtain ⟨⟨_, after⟩, answered, views⟩ := Option.map_eq_some_iff.1 ran
  simp only [Prod.mk.injEq] at views
  obtain ⟨rfl, stored, moved⟩ := views
  obtain ⟨address, resolved, -, noted⟩ :=
    computed wiring 1 (.name "x") ⟨memory, {}⟩ after 7 answered
  have five : memory.resolve (.name "x") = .ok 5 := by decide
  obtain rfl : address = 5 := Except.ok.inj (resolved.symm.trans five)
  exact ⟨observed, after, answered, noted (by decide), stored, moved⟩

end Access

end MoveMachine
