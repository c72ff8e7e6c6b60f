import MoveMachine.Proofs.MachineSimulation
import MoveMachine.Proofs.Stamps

/-!
The log of writes. A stage that logs its writes is the plain one with one thing added: a write
whose reference resolves appends the address to the log, before its triggers run. Nothing reads
the log. Nested writes stand in it after the writes that set them off, and a write stays in it
when one of its triggers fails.

Along the way the clock shows one tick for each logged write and none for anything else. From a
memory without stamps in the future, a cell is stamped later than the start if and only if its
address stands in the log.
-/

set_option autoImplicit false

namespace MoveMachine

open MoveMachine.Action (Terms)

/-- A state with the addresses that writes were made to, oldest first. -/
structure Logged (σ : Type) where
  state : σ
  writes : List Address := []

instance Logged.stage : Stage (Logged World) where
  world logged := logged.state
  setWorld world logged := { logged with state := world }
  noteWrite address logged := { logged with writes := logged.writes ++ [address] }
  world_setWorld _ _ := rfl
  setWorld_world _ := rfl
  setWorld_setWorld _ _ _ := rfl

instance Logged.bench : Bench (Logged System) (Logged World) where
  ipAddress logged := Bench.ipAddress logged.state
  count made logged := { logged with state := Bench.count made logged.state }
  stage logged := ⟨logged.state.world, logged.writes⟩
  setStage stage logged := ⟨logged.state.setWorld stage.state, stage.writes⟩
  stage_setStage _ _ := rfl
  ipAddress_setStage _ _ := rfl
  stage_count _ _ := rfl
  ipAddress_count _ _ := rfl

namespace Memory

/--
What a log says of the time since a start: the clock moved by its length, the logged cells are
stamped later than the start, and, if no cell was stamped in the future, no others are.
-/
structure Tally (start memory : Memory) (writes : List Address) : Prop where
  clock : memory.clock = start.clock + writes.length
  written : ∀ address ∈ writes, memory.writtenSince address start.clock = true
  stamped : start.Stamped → memory.Stamped
  listed : start.Stamped → ∀ address,
    memory.writtenSince address start.clock = true → address ∈ writes

namespace Tally

variable {start memory after : Memory} {writes : List Address}

/-- If no cell was stamped in the future, the log is what the stamps tell of the time since. -/
theorem writtenSince (tally : start.Tally memory writes) (stamped : start.Stamped)
    (address : Address) : memory.writtenSince address start.clock = true ↔ address ∈ writes :=
  ⟨tally.listed stamped address, tally.written address⟩

theorem nil (start : Memory) : start.Tally start [] where
  clock := rfl
  written := nofun
  stamped stamped := stamped
  listed := by
    intro stamped address written
    have past := stamped address
    simp only [Memory.writtenSince, decide_eq_true_eq] at written
    omega

theorem quiet (tally : start.Tally memory writes) (quiet : memory.Quiet after) :
    start.Tally after writes := by
  have same : ∀ address, after.writtenSince address start.clock =
      memory.writtenSince address start.clock := by
    intro address
    simp only [Memory.writtenSince, quiet.writtenAt]
  constructor
  case clock => exact quiet.clock.trans tally.clock
  case written =>
    intro address listed
    rw [same]
    exact tally.written address listed
  case stamped => exact fun stamped => (tally.stamped stamped).quiet quiet
  case listed =>
    intro stamped address written
    rw [same] at written
    exact tally.listed stamped address written

theorem record (tally : start.Tally memory writes) (address : Address) (value : Word) :
    start.Tally (memory.record address value) (writes ++ [address]) := by
  have clock := tally.clock
  -- The new stamp is later than the start, as the clock never shows less than it did then.
  have stamps : ∀ place, (memory.record address value).writtenSince place start.clock = true ↔
      address = place ∨ memory.writtenSince place start.clock = true := by
    intro place
    simp only [Memory.writtenSince, decide_eq_true_eq, cell_record]
    by_cases same : address = place
    · simp only [same, if_true, true_or, iff_true]
      omega
    · simp only [same, if_false, false_or]
  constructor
  case clock =>
    simp only [clock_record, List.length_append, List.length_singleton]
    omega
  case written =>
    intro place listed
    rw [stamps]
    rcases List.mem_append.1 listed with earlier | last
    · exact .inr (tally.written place earlier)
    · exact .inl (List.mem_singleton.1 last).symm
  case stamped => exact fun stamped => (tally.stamped stamped).record address value
  case listed =>
    intro stamped place written
    rcases (stamps place).1 written with rfl | earlier
    · exact List.mem_append_right writes (List.mem_singleton.2 rfl)
    · exact List.mem_append_left [address] (tally.listed stamped place earlier)

end Tally

end Memory

/-- A logged state over a plain one, with a log that tallies with the time since a start. -/
structure Logged.Over {σ : Type} (view : σ → Memory) (start : Memory) (plain : σ)
    (logged : Logged σ) : Prop where
  state : logged.state = plain
  tally : start.Tally (view plain) logged.writes

section Logs

variable (start : Memory)

abbrev Logged.terms : Terms World (Logged World) := Terms.alike (Logged.Over World.memory start)

abbrev Logged.systemTerms : Terms System (Logged System) :=
  Terms.alike (Logged.Over (fun system => system.machine.memory) start)

/-- A log that is kept changes no outcome, and goes on tallying. -/
theorem Logged.simulation : Stage.Simulation .all (Logged.terms start) where
  lacks := trivial
  symbols := by rintro w _ ⟨⟨rfl, -⟩, -⟩; rfl
  readTrigger := by rintro w _ ⟨⟨rfl, -⟩, -⟩ address; rfl
  writeTriggers := by rintro w _ ⟨⟨rfl, -⟩, -⟩ address; rfl
  peek := by rintro w _ ⟨⟨rfl, -⟩, -⟩ address -; rfl
  writtenSince := by rintro w _ v _ ⟨⟨rfl, -⟩, ⟨rfl, -⟩⟩ address; rfl
  host := by rintro w _ ⟨⟨rfl, -⟩, -⟩; rfl
  change := by
    rintro w logged ⟨⟨rfl, tally⟩, -⟩ change direct -
    have silent : change.isSilent = true := by
      cases change with
      | record => cases direct
      | poke | observe | bind | setReadTrigger | addWriteTriggers => rfl
    exact ⟨⟨rfl, tally⟩, rfl, tally.quiet (change.quiet silent _)⟩
  record := by
    rintro w logged ⟨⟨rfl, tally⟩, -⟩ address value
    exact ⟨⟨rfl, tally⟩, rfl, tally.record address value⟩
  observe := by
    rintro w logged v later ⟨begun, ⟨rfl, tally⟩⟩ address value -
    exact ⟨begun, rfl, tally.quiet (Memory.Change.quiet (.observe address value) rfl _)⟩
  act := by
    rintro w logged ⟨⟨rfl, tally⟩, -⟩ act -
    exact ⟨⟨rfl, tally⟩, rfl, tally⟩

theorem Logged.benchSimulation :
    Bench.Simulation (Logged.terms start) (Logged.systemTerms start) where
  lacks := id
  alone := id
  place := by rintro b _ ⟨⟨rfl, -⟩, -⟩; rfl
  take := by
    rintro b logged ⟨⟨rfl, tally⟩, -⟩
    exact ⟨⟨rfl, tally⟩, rfl, tally⟩
  back := by
    rintro b logged ⟨⟨rfl, tally⟩, -⟩ w later ⟨-, ⟨rfl, further⟩⟩
    exact ⟨⟨rfl, tally⟩, rfl, further⟩
  count := by
    rintro b logged ⟨⟨rfl, tally⟩, -⟩ made
    exact ⟨⟨rfl, tally⟩, rfl, tally⟩

end Logs

theorem Machine.transfer_logged {wiring : Wiring} {depth : Nat} {source target : Address}
    {before after : World} {result : Except MachineError Word}
    (transferred : transfer wiring depth source target before = some (result, after)) :
    ∃ writes, transfer wiring depth source target (⟨before, []⟩ : Logged World) =
        some (result, ⟨after, writes⟩) ∧ before.memory.Tally after.memory writes := by
  have inStep := InStep.of_stage (Logged.simulation before.memory) wiring.respects_all
    (.inl (Eq.refl depth))
  have begun : Logged.Over World.memory before.memory before ⟨before, []⟩ := ⟨rfl, .nil _⟩
  obtain ⟨⟨_, writes⟩, logged, -, rfl, tally⟩ :=
    (transfer_lockstep inStep source target _ _ ⟨begun, begun⟩).right_of_left transferred
  exact ⟨writes, logged, tally⟩

theorem Request.perform_logged {wiring : Wiring} {depth : Nat} {request : Request}
    {before after : System} {result : Except RequestError Reply}
    (performed : request.perform wiring depth before = some (result, after)) :
    ∃ writes, request.perform wiring depth (⟨before, []⟩ : Logged System) =
        some (result, ⟨after, writes⟩) ∧
      before.machine.memory.Tally after.machine.memory writes := by
  have lockstep := perform_lockstep (Logged.benchSimulation before.machine.memory)
    (Logged.simulation _) wiring.respects_all (.inl (Eq.refl depth)) request.respects_all
  have begun : Logged.Over (fun system : System => system.machine.memory) before.machine.memory
      before ⟨before, []⟩ := ⟨rfl, .nil _⟩
  obtain ⟨⟨_, writes⟩, logged, -, rfl, tally⟩ :=
    (lockstep _ _ ⟨begun, begun⟩).right_of_left performed
  exact ⟨writes, logged, tally⟩

end MoveMachine
