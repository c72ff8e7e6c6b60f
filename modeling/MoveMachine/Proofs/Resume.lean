import MoveMachine.Proofs.CellSimulation
import MoveMachine.Proofs.Snapshot

/-!
Resuming from a snapshot. A machine that resumes from its own snapshot cannot be told from the
machine that was saved. The two differ in clock and stamps, but the jump test only compares a
stamp with a time the clock has shown, and in the resumed machine both are behind by the number
of writes before the snapshot.
-/

set_option autoImplicit false

namespace MoveMachine

/-- Cells with the same contents, of which the second has forgotten the first writes. -/
structure Cell.Behind (lag : Nat) (saved resumed : Cell) : Prop where
  stored : saved.stored = resumed.stored
  onRead : saved.onRead = resumed.onRead
  onWrite : saved.onWrite = resumed.onWrite
  writtenAt : resumed.writtenAt = saved.writtenAt - lag

theorem Cell.behind_simulation (lag : Nat) : Cell.Simulation lag (Cell.Behind lag) where
  onRead behind := behind.onRead
  onWrite behind := behind.onWrite
  stored behind _ := behind.stored
  writtenAt behind := behind.writtenAt
  poke behind _ := ⟨rfl, behind.onRead, behind.onWrite, behind.writtenAt⟩
  observe behind _ := ⟨behind.stored, behind.onRead, behind.onWrite, behind.writtenAt⟩
  record behind _ time :=
    ⟨rfl, behind.onRead, behind.onWrite, (Nat.add_sub_cancel time lag).symm⟩
  setReadTrigger behind _ := ⟨behind.stored, rfl, behind.onWrite, behind.writtenAt⟩
  addWriteTriggers behind _ := ⟨behind.stored, behind.onRead, rfl, behind.writtenAt⟩

/-- The same symbols, alias order included, the same values and the same triggers. -/
structure Memory.SameContents (left right : Memory) : Prop where
  symbols : left.symbols = right.symbols
  stored : ∀ address, left.stored address = right.stored address
  readTrigger : ∀ address, left.readTrigger address = right.readTrigger address
  writeTriggers : ∀ address, left.writeTriggers address = right.writeTriggers address

theorem Memory.sameContents_of_behind {lag : Nat} {saved resumed : Memory}
    (behind : Cellwise lag (Cell.Behind lag) saved resumed) : saved.SameContents resumed where
  symbols := behind.symbols
  stored address := (behind.cell address).stored
  readTrigger address := (behind.cell address).onRead
  writeTriggers address := (behind.cell address).onWrite

/-- What is restored from a snapshot is behind by all the writes that were ever made. -/
theorem Memory.behind_of_snapshot {saved resumed : Memory} (stamped : saved.Stamped)
    (symbols : resumed.symbols = saved.symbols) (clock : resumed.clock = 0)
    (cells : ∀ address, resumed.cell address = (saved.cell address).snapshot true) :
    Cellwise saved.clock (Cell.Behind saved.clock) saved resumed where
  symbols := symbols.symm
  clock := by omega
  cell := by
    intro address
    rw [cells]
    exact ⟨rfl, rfl, rfl, (Nat.sub_eq_zero_of_le (stamped address)).symm⟩

/--
The snapshot of a reachable machine, triggers included, loads into a machine that replies to
every further history as the saved one does, does the same to the host, and keeps the same
values, symbols, aliases and triggers. The triggers are scripts, so none of them ever looks at
the raw word under a read trigger, at an observed word, at a stamp or at the clock: the resumed
machine has other clocks, stamps and observed words.
-/
theorem Machine.Reachable.resumes {machine : Machine} (reachable : machine.Reachable) :
    ∃ resumed, Machine.ofConfig (machine.toConfig true) = .ok resumed ∧
      ∀ (wiring : Wiring) (depth : Nat) (requests : List Request) (host : Host),
        Request.Indistinguishable Memory.SameContents
          (Request.performAll wiring depth requests ⟨machine, host⟩)
          (Request.performAll wiring depth requests
            ⟨{ resumed with ipAddress := machine.ipAddress }, host⟩) := by
  obtain ⟨restored, loaded, symbols, clock, cells⟩ := Config.load_ofMemory machine.memory true
  refine ⟨Machine.ofMemory restored, ?_, ?_⟩
  · simp only [Machine.ofConfig, Machine.toConfig, loaded]
    rfl
  · intro wiring depth requests host
    have behind := Memory.behind_of_snapshot reachable.stamped symbols clock cells
    have alike : System.Alike _ ⟨machine, host⟩
        ⟨{ Machine.ofMemory restored with ipAddress := machine.ipAddress }, host⟩ :=
      ⟨rfl, behind, rfl⟩
    have same := Request.performAll_alike (Cell.behind_simulation machine.memory.clock).memory
      wiring depth requests alike
    exact same.mono fun m n => Memory.sameContents_of_behind

/-- A machine whose clock has moved and whose trigger has no label resumes like any other. -/
theorem Machine.Reachable.resumes_written :
    let memory := (({} : Memory).addWriteTriggers 6 [⟨none, 0⟩] false).record 6 5
    memory.clock = 1 ∧
      ∃ resumed, Machine.ofConfig (Machine.toConfig { memory } true) = .ok resumed ∧
        ∀ (wiring : Wiring) (depth : Nat) (requests : List Request) (host : Host),
          Request.Indistinguishable Memory.SameContents
            (Request.performAll wiring depth requests ⟨{ memory }, host⟩)
            (Request.performAll wiring depth requests ⟨{ resumed with ipAddress := 0 }, host⟩) := by
  intro memory
  have triggered := (Machine.Reachable.start 0).addWriteTriggers 6 [⟨none, 0⟩] false
  have reachable : Machine.Reachable { memory } :=
    triggered.perform {} 1 (.write (.address 6) 5) {} rfl
  obtain ⟨resumed, loaded, same⟩ := reachable.resumes
  exact ⟨rfl, resumed, loaded, same⟩

end MoveMachine
