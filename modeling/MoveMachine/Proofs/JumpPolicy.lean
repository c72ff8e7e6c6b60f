import MoveMachine.Proofs.Reachable
import MoveMachine.Proofs.WriteLog

set_option autoImplicit false

namespace MoveMachine.Machine

private theorem advance_eq_ok {wiring : Wiring} {depth : Nat} {ipAddress : Address}
    {ipWord : Word} {world after : World}
    (advanced : advance wiring depth ipAddress ipWord world = some (.ok (), after)) :
    ∃ next : Word, next.toInt = ipWord.toInt + 2 ∧
      Access.write wiring depth ipAddress next world = some (.ok (), after) := by
  unfold advance at advanced
  cases found : Word.ofInt? (ipWord.toInt + 2) with
  | none =>
    rw [found] at advanced
    cases advanced
  | some next =>
    rw [found] at advanced
    have value : next.toInt = ipWord.toInt + 2 := Word.ofInt?_eq_some_iff.1 found
    exact ⟨next, value, Action.mapError_eq_ok.1 advanced⟩

private theorem move_eq_ok {wiring : Wiring} {depth : Nat} {ipAddress : Address}
    {world after : World} {made : Move}
    (ran : move wiring depth ipAddress world = some (.ok made, after)) :
    ∃ operands fetched value moved,
      fetch wiring depth ipAddress world = some (.ok operands, fetched) ∧
      transfer wiring depth operands.source operands.target fetched = some (.ok value, moved) ∧
      made = operands.made value (moved.memory.writtenSince ipAddress fetched.memory.clock) ∧
      (made.jumped = true → after = moved) ∧
      (made.jumped = false →
        advance wiring depth ipAddress operands.ipWord moved = some (.ok (), after)) := by
  obtain ⟨operands, fetched, isFetched, ran⟩ := Action.bind_eq_ok.1 ran
  rw [Action.get_bind_apply] at ran
  obtain ⟨value, moved, isMoved, ran⟩ := Action.bind_eq_ok.1 ran
  rw [Action.get_bind_apply, Stage.world_self, Stage.world_self] at ran
  refine ⟨operands, fetched, value, moved, isFetched, isMoved, ?_⟩
  cases tested : moved.memory.writtenSince ipAddress fetched.memory.clock with
  | true =>
    rw [tested, if_pos rfl] at ran
    cases ran
    exact ⟨rfl, fun _ => rfl, nofun⟩
  | false =>
    rw [tested, if_neg nofun] at ran
    obtain ⟨_, final, advanced, ended⟩ := Action.bind_eq_ok.1 ran
    cases ended
    exact ⟨rfl, nofun, fun _ => advanced⟩

private theorem step_eq_ok {wiring : Wiring} {depth : Nat} {system after : System} {made : Move}
    (stepped : step wiring depth system = some (.ok made, after)) :
    move wiring depth system.machine.ipAddress system.world = some (.ok made, after.world) := by
  rw [step_eq] at stepped
  obtain ⟨⟨_, world⟩, ran, same⟩ := Option.map_eq_some_iff.1 stepped
  cases same
  exact ran

/-- The course of a move that was made, from the fetch of its operands to its end. -/
structure Course (wiring : Wiring) (depth : Nat) (before : System) (made : Move)
    (after : System) where
  operands : Operands
  /-- The world when the operands are known. What is written up to here is no jump. -/
  fetched : World
  /-- The world after the transfer and all triggers it set off. -/
  moved : World
  /-- The addresses written in between, by the move or by its triggers. -/
  writes : List Address
  isFetched : fetch wiring depth before.machine.ipAddress before.world =
    some (.ok operands, fetched)
  isMoved : transfer wiring depth operands.source operands.target fetched =
    some (.ok made.value, moved)
  isLogged : transfer wiring depth operands.source operands.target
    (⟨fetched, []⟩ : Logged World) = some (.ok made.value, ⟨moved, writes⟩)
  isRecorded : made = operands.made made.value made.jumped
  jumps : made.jumped = true ↔ before.machine.ipAddress ∈ writes
  /-- A move that jumped is over. -/
  stays : made.jumped = true → after.world = moved
  /-- A move that did not jump ends with a write of the next place to the pointer. -/
  advances : made.jumped = false → ∃ next : Word, next.toInt = operands.ipWord.toInt + 2 ∧
    Access.write wiring depth before.machine.ipAddress next moved = some (.ok (), after.world)

/-- From a memory without stamps in the future, every move that is made takes such a course. -/
private theorem course_of_step {wiring : Wiring} {depth : Nat} {before after : System}
    {made : Move} (stamped : before.machine.memory.Stamped)
    (stepped : step wiring depth before = some (.ok made, after)) :
    Nonempty (Course wiring depth before made after) := by
  obtain ⟨operands, fetched, value, moved, isFetched, transferred, recorded, stays, advances⟩ :=
    move_eq_ok (step_eq_ok stepped)
  have worldStamped : before.world.memory.Stamped := stamped
  have fetchedStamped : fetched.memory.Stamped :=
    Memory.stamped_invariant.fetch worldStamped isFetched
  -- The log is opened when the mark is taken, so it holds just the writes that may be a jump.
  obtain ⟨writes, isLogged, tally⟩ := transfer_logged transferred
  have tested := tally.writtenSince fetchedStamped before.machine.ipAddress
  subst recorded
  exact ⟨{
    operands, fetched, moved, writes, isFetched, isLogged
    isMoved := transferred
    isRecorded := rfl
    jumps := tested
    stays := stays
    advances := fun stayed => advance_eq_ok (advances stayed) }⟩

/--
The jump policy. In what can be reached no stamp is later than the clock, and the clock of any
memory moves on by one for each write and for nothing else. So a move that is made from what
can be reached jumps exactly if its transfer writes the cell of the instruction pointer, and
advances the pointer exactly if it does not jump.
-/
theorem jumpPolicy_exact :
    (∀ machine : Machine, machine.Reachable →
      ∀ address, (machine.memory.cell address).writtenAt ≤ machine.memory.clock) ∧
    (∀ (wiring : Wiring) (depth : Nat) (request : Request) (before after : System)
      (result : Except RequestError Reply),
      request.perform wiring depth before = some (result, after) →
      ∃ writes, request.perform wiring depth (⟨before, []⟩ : Logged System) =
          some (result, ⟨after, writes⟩) ∧
        after.machine.memory.clock = before.machine.memory.clock + writes.length) ∧
    (∀ machine : Machine, machine.Reachable →
      ∀ (wiring : Wiring) (depth : Nat) (host : Host) (made : Move) (after : System),
      step wiring depth ⟨machine, host⟩ = some (.ok made, after) →
      Nonempty (Course wiring depth ⟨machine, host⟩ made after)) := by
  refine ⟨fun machine reachable => reachable.stamped, ?_, ?_⟩
  · intro wiring depth request before after result performed
    obtain ⟨writes, logged, tally⟩ := Request.perform_logged performed
    exact ⟨writes, logged, tally.clock⟩
  · intro machine reachable wiring depth host made after stepped
    exact course_of_step reachable.stamped stepped

/--
A move to cell 6 jumps because a trigger two levels down writes the pointer, though it writes
the word that is there already, and fails.
-/
theorem jumpPolicy_exact_nested :
    let wiring : Wiring :=
      { writes := #[fun _ => .write (.address 8) 1 fun _ => .done 0,
          fun _ => .writing (.address 0) 2 (.fail (.device "stop"))] }
    let memory := ((({} : Memory).poke 0 2).poke 2 5).poke 3 6
      |>.addWriteTriggers 6 [⟨none, 0⟩] false |>.addWriteTriggers 8 [⟨none, 1⟩] false
    ∃ made after, step wiring 2 ⟨{ memory }, {}⟩ = some (.ok made, after) ∧
      ∃ course : Course wiring 2 ⟨{ memory }, {}⟩ made after, 0 ∈ course.writes := by
  intro wiring memory
  have reachable : Reachable { memory } :=
    ((((Reachable.start 0).poke 0 2).poke 2 5).poke 3 6).addWriteTriggers 6 [⟨none, 0⟩] false
      |>.addWriteTriggers 8 [⟨none, 1⟩] false
  have jumped :
      (step wiring 2 ⟨{ memory }, {}⟩).map (·.1) = some (.ok (⟨2, 5, 6, 0, true⟩ : Move)) := by
    decide
  obtain ⟨⟨_, after⟩, stepped, rfl⟩ := Option.map_eq_some_iff.1 jumped
  obtain ⟨course⟩ := jumpPolicy_exact.2.2 { memory } reachable wiring 2 {} _ after stepped
  exact ⟨_, after, stepped, course, course.jumps.1 rfl⟩

end MoveMachine.Machine
