import Mathlib.Algebra.Group.Int.Defs
import MoveMachine.Proofs.TriggerCalls
import MoveMachine.Proofs.WriteLog

/-!
What a step that fails leaves behind. A move uses cells one after another: it reads the pointer
and the two cells that hold the move, reads the source, writes the target, and writes the pointer
if it advances. It fails where a trigger fails that is called for one of these uses, where the
pointer reads 0, where a fetched word names no address, and where the pointer cannot advance. In
each case what was done until then stays, and nothing is counted.
-/

set_option autoImplicit false

namespace MoveMachine.Machine

open MoveMachine.Action (Passes)

inductive CellUse where
  | read (address : Address)
  | write (address : Address) (value : Word)

/-- A trigger fails that is called for the use of a cell, after those called before it passed. -/
inductive Raised (wiring : Wiring) (depth : Nat) : CellUse → World → MemoryError → World → Prop
  | read {address : Address} {world after : World} {cause : MemoryError} {trigger : ReadTrigger} :
      world.memory.readTrigger address = some trigger →
      Access.callRead wiring depth trigger world = some (.error cause, after) →
      Raised wiring depth (.read address) world cause after
  | write {address : Address} {value : Word} {world middle after : World} {cause : MemoryError}
      {earlier later : List WriteTrigger} {trigger : WriteTrigger} :
      world.memory.writeTriggers address = earlier ++ trigger :: later →
      Passes (fun trigger => Access.callWrite wiring depth trigger value) earlier
        { world with memory := world.memory.record address value } middle →
      Access.callWrite wiring depth trigger value middle = some (.error cause, after) →
      Raised wiring depth (.write address value) world cause after

section Course

variable (wiring : Wiring) (depth : Nat) (ipAddress : Address) (start : World)

/-- A cell that a move from a world fetches, with the world in which it reads that cell. -/
inductive Fetches : Address → World → Prop
  | pointer : Fetches ipAddress start
  | first {ipWord : Word} {ip : Address} {pointed : World} :
      readCell wiring depth ipAddress start = some (.ok ipWord, pointed) → ipWord ≠ 0 →
      Address.ofWord? ipWord = some ip → Fetches ip pointed
  | second {ipWord sourceWord : Word} {ip source : Address} {pointed sourced : World} :
      readCell wiring depth ipAddress start = some (.ok ipWord, pointed) → ipWord ≠ 0 →
      Address.ofWord? ipWord = some ip →
      readCell wiring depth ip pointed = some (.ok sourceWord, sourced) →
      Address.ofWord? sourceWord = some source → Fetches (ip + 1) sourced

/-- What a move from a world comes to use, with the world in which it does. -/
inductive Comes : CellUse → World → Prop
  | fetch {place : Address} {world : World} :
      Fetches wiring depth ipAddress start place world → Comes (.read place) world
  | source {operands : Operands} {fetched : World} :
      fetch wiring depth ipAddress start = some (.ok operands, fetched) →
      Comes (.read operands.source) fetched
  | target {operands : Operands} {fetched valued : World} {value : Word} :
      fetch wiring depth ipAddress start = some (.ok operands, fetched) →
      readCell wiring depth operands.source fetched = some (.ok value, valued) →
      Comes (.write operands.target value) valued
  | advance {operands : Operands} {fetched moved : World} {value next : Word} :
      fetch wiring depth ipAddress start = some (.ok operands, fetched) →
      transfer wiring depth operands.source operands.target fetched = some (.ok value, moved) →
      moved.memory.writtenSince ipAddress fetched.memory.clock = false →
      next.toInt = operands.ipWord.toInt + 2 → Comes (.write ipAddress next) moved

/-- Where a move that fails ends, with which error and in which world. -/
inductive Exit : MachineError → World → Prop
  | raised {use : CellUse} {world after : World} {cause : MemoryError} :
      Comes wiring depth ipAddress start use world → Raised wiring depth use world cause after →
      Exit (.memory cause) after
  | halted {after : World} :
      readCell wiring depth ipAddress start = some (.ok 0, after) → Exit .halted after
  | negative {place : Address} {world after : World} {word : Word} :
      Fetches wiring depth ipAddress start place world →
      readCell wiring depth place world = some (.ok word, after) → word < 0 →
      Exit (.invalidAddress word) after
  | overflow {operands : Operands} {fetched after : World} {value : Word} :
      fetch wiring depth ipAddress start = some (.ok operands, fetched) →
      transfer wiring depth operands.source operands.target fetched = some (.ok value, after) →
      after.memory.writtenSince ipAddress fetched.memory.clock = false →
      Word.ofInt? (operands.ipWord.toInt + 2) = none →
      Exit (.invalidAddress operands.ipWord) after

end Course

variable {wiring : Wiring} {depth : Nat} {ipAddress : Address} {start world after : World}
  {error : MachineError}

private theorem raised_of_readCell {address : Address}
    (failed : readCell wiring depth address world = some (.error error, after)) :
    ∃ cause, error = .memory cause ∧ Raised wiring depth (.read address) world cause after := by
  obtain ⟨cause, reading, rfl⟩ := Action.mapError_eq_error.1 failed
  refine ⟨cause, rfl, ?_⟩
  have found : Access.resolve address world = some (.ok address, world) := rfl
  rw [Access.read, Access.readVia, Action.bind_of_ok found, Action.get_bind_apply,
    Stage.world_self] at reading
  cases triggered : world.memory.readTrigger address with
  | none =>
    rw [triggered] at reading
    cases reading
  | some trigger =>
    rw [triggered] at reading
    rcases Action.bind_eq_error.1 reading with called | ⟨value, between, -, noted⟩
    · exact .read triggered called
    · cases noted

private theorem raised_of_writeCell {address : Address} {value : Word}
    (failed : writeCell wiring depth address value world = some (.error error, after)) :
    ∃ cause, error = .memory cause ∧
      Raised wiring depth (.write address value) world cause after := by
  obtain ⟨cause, writing, rfl⟩ := Action.mapError_eq_error.1 failed
  have resolved : world.memory.resolve address = .ok address := rfl
  have turns := Action.forM_inTurn
    (fun trigger => Access.callWrite wiring depth trigger value)
    (world.memory.writeTriggers address)
    { world with memory := world.memory.record address value }
  rw [← Access.writeVia_resolved resolved] at turns
  rw [Access.write] at writing
  rw [writing] at turns
  cases turns with
  | failed split passes stopped => exact ⟨cause, rfl, .write split passes stopped⟩

private theorem toAddress_eq_ok {word : Word} {address : Address} :
    toAddress word world = some (.ok address, after) ↔
      Address.ofWord? word = some address ∧ world = after := by
  unfold toAddress
  cases Address.ofWord? word with
  | none => exact ⟨nofun, nofun⟩
  | some found =>
    constructor
    · intro answered
      cases answered
      exact ⟨rfl, rfl⟩
    · rintro ⟨same, rfl⟩
      cases same
      rfl

private theorem toAddress_eq_error {word : Word} :
    toAddress word world = some (.error error, after) ↔
      word < 0 ∧ error = .invalidAddress word ∧ world = after := by
  unfold toAddress Address.ofWord?
  by_cases negative : word < 0
  · rw [if_pos negative]
    constructor
    · intro refused
      cases refused
      exact ⟨negative, rfl, rfl⟩
    · rintro ⟨-, rfl, rfl⟩
      rfl
  · rw [if_neg negative]
    exact ⟨nofun, fun refused => absurd refused.1 negative⟩

private theorem fetch_eq_ok {operands : Operands}
    (fetched : fetch wiring depth ipAddress start = some (.ok operands, after)) :
    ∃ pointed, readCell wiring depth ipAddress start = some (.ok operands.ipWord, pointed) ∧
      0 ≤ operands.ipWord := by
  obtain ⟨ipWord, pointed, pointer, fetched⟩ := Action.bind_eq_ok.1 fetched
  split at fetched
  · cases fetched
  · obtain ⟨ip, _, named, fetched⟩ := Action.bind_eq_ok.1 fetched
    obtain ⟨sourceWord, _, -, fetched⟩ := Action.bind_eq_ok.1 fetched
    obtain ⟨source, _, -, fetched⟩ := Action.bind_eq_ok.1 fetched
    obtain ⟨targetWord, _, -, fetched⟩ := Action.bind_eq_ok.1 fetched
    obtain ⟨target, _, -, fetched⟩ := Action.bind_eq_ok.1 fetched
    cases fetched
    exact ⟨pointed, pointer, (Address.ofWord?_eq_some_iff.1 (toAddress_eq_ok.1 named).1).1⟩

private theorem exit_of_fetch
    (failed : fetch wiring depth ipAddress start = some (.error error, after)) :
    Exit wiring depth ipAddress start error after := by
  have reading : ∀ {place : Address} {world : World},
      Fetches wiring depth ipAddress start place world →
      readCell wiring depth place world = some (.error error, after) →
      Exit wiring depth ipAddress start error after := by
    intro place world fetches stopped
    obtain ⟨cause, rfl, raised⟩ := raised_of_readCell stopped
    exact .raised (.fetch fetches) raised
  have naming : ∀ {place : Address} {world between : World} {word : Word},
      Fetches wiring depth ipAddress start place world →
      readCell wiring depth place world = some (.ok word, between) →
      toAddress word between = some (.error error, after) →
      Exit wiring depth ipAddress start error after := by
    intro place world between word fetches read refused
    obtain ⟨negative, rfl, rfl⟩ := toAddress_eq_error.1 refused
    exact .negative fetches read negative
  -- The fetch is taken apart in its own order: each read, then the address in the word it gave.
  rcases Action.bind_eq_error.1 failed with stopped | ⟨ipWord, pointed, pointer, failed⟩
  · exact reading .pointer stopped
  split at failed
  · rename_i zero
    subst zero
    cases failed
    exact .halted pointer
  rename_i running
  rcases Action.bind_eq_error.1 failed with refused | ⟨ip, _, named, failed⟩
  · exact naming .pointer pointer refused
  obtain ⟨ipFound, rfl⟩ := toAddress_eq_ok.1 named
  have first := Fetches.first pointer running ipFound
  rcases Action.bind_eq_error.1 failed with stopped | ⟨sourceWord, sourced, sourceRead, failed⟩
  · exact reading first stopped
  rcases Action.bind_eq_error.1 failed with refused | ⟨source, _, named, failed⟩
  · exact naming first sourceRead refused
  obtain ⟨sourceFound, rfl⟩ := toAddress_eq_ok.1 named
  have second := Fetches.second pointer running ipFound sourceRead sourceFound
  rcases Action.bind_eq_error.1 failed with stopped | ⟨targetWord, targeted, targetRead, failed⟩
  · exact reading second stopped
  rcases Action.bind_eq_error.1 failed with refused | ⟨target, _, named, failed⟩
  · exact naming second targetRead refused
  · cases failed

private theorem exit_of_move
    (failed : move wiring depth ipAddress start = some (.error error, after)) :
    Exit wiring depth ipAddress start error after := by
  rcases Action.bind_eq_error.1 failed with stopped | ⟨operands, fetched, isFetched, failed⟩
  · exact exit_of_fetch stopped
  rw [Action.get_bind_apply] at failed
  rcases Action.bind_eq_error.1 failed with stopped | ⟨value, moved, isMoved, failed⟩
  · rcases Action.bind_eq_error.1 stopped with unread | ⟨value, valued, isRead, unwritten⟩
    · obtain ⟨cause, rfl, raised⟩ := raised_of_readCell unread
      exact .raised (.source isFetched) raised
    · rcases Action.bind_eq_error.1 unwritten with unwritten | ⟨_, _, -, answered⟩
      · obtain ⟨cause, rfl, raised⟩ := raised_of_writeCell unwritten
        exact .raised (.target isFetched isRead) raised
      · cases answered
  rw [Action.get_bind_apply] at failed
  split at failed
  · cases failed
  rename_i stays
  have unwritten := eq_false_of_ne_true stays
  rcases Action.bind_eq_error.1 failed with stopped | ⟨_, _, -, answered⟩
  · unfold advance at stopped
    cases next : Word.ofInt? (operands.ipWord.toInt + 2) with
    | none =>
      rw [next] at stopped
      cases stopped
      exact .overflow isFetched isMoved unwritten next
    | some word =>
      rw [next] at stopped
      obtain ⟨cause, rfl, raised⟩ := raised_of_writeCell stopped
      exact .raised (.advance isFetched isMoved unwritten (Word.ofInt?_eq_some_iff.1 next)) raised
  · cases answered

private theorem eq_of_readCell {place : Address} {word : Word}
    (untriggered : start.memory.readTrigger place = none)
    (read : readCell wiring depth place start = some (.ok word, after)) : after = start := by
  have resolved : start.memory.resolve place = .ok place := rfl
  have known : Access.read wiring depth place start = _ :=
    Access.readVia_plain resolved untriggered
  rw [Action.mapError_eq_ok.1 read] at known
  cases known
  rfl

private theorem Fetches.eq_start {place : Address}
    (plain : ∀ place world, Fetches wiring depth ipAddress start place world →
      start.memory.readTrigger place = none)
    (fetches : Fetches wiring depth ipAddress start place world) : world = start := by
  cases fetches with
  | pointer => rfl
  | first pointer running ipFound => exact eq_of_readCell (plain _ _ .pointer) pointer
  | second pointer running ipFound sourceRead sourceFound =>
    obtain rfl := eq_of_readCell (plain _ _ .pointer) pointer
    exact eq_of_readCell (plain _ _ (.first pointer running ipFound)) sourceRead

/--
What a step that failed leaves behind. Nothing is counted and the pointer keeps its place; what
else there is to say goes by the error.
-/
structure Failed (wiring : Wiring) (depth : Nat) (before : System) (error : MachineError)
    (after : System) : Prop where
  steps : after.machine.steps = before.machine.steps
  lastMove : after.machine.lastMove = before.machine.lastMove
  ipAddress : after.machine.ipAddress = before.machine.ipAddress
  halted : error = .halted →
    readCell wiring depth before.machine.ipAddress before.world = some (.ok 0, after.world)
  negative : ∀ word, error = .invalidAddress word → word < 0 → ∃ place world,
    Fetches wiring depth before.machine.ipAddress before.world place world ∧
      readCell wiring depth place world = some (.ok word, after.world)
  /-- A fetch that is all there was to a step leaves no trace on plain cells. -/
  untouched : error = .halted ∨ (∃ word < 0, error = .invalidAddress word) →
    (∀ place world, Fetches wiring depth before.machine.ipAddress before.world place world →
      before.machine.memory.readTrigger place = none) → after = before
  /-- A step that cannot advance has made its move, all of it, and the move was no jump. -/
  overflow : ∀ word, error = .invalidAddress word → 0 ≤ word →
    (word.toInt = 2 ^ 63 - 2 ∨ word.toInt = 2 ^ 63 - 1) ∧
    (∃ pointed, readCell wiring depth before.machine.ipAddress before.world =
      some (.ok word, pointed)) ∧
    ∃ operands fetched value writes,
      fetch wiring depth before.machine.ipAddress before.world = some (.ok operands, fetched) ∧
      operands.ipWord = word ∧
      transfer wiring depth operands.source operands.target fetched =
        some (.ok value, after.world) ∧
      transfer wiring depth operands.source operands.target (⟨fetched, []⟩ : Logged World) =
        some (.ok value, ⟨after.world, writes⟩) ∧
      before.machine.ipAddress ∉ writes
  /-- An error of memory was raised by a trigger. -/
  memory : ∀ cause, error = .memory cause → ∃ use world,
    Comes wiring depth before.machine.ipAddress before.world use world ∧
      Raised wiring depth use world cause after.world
  /-- Only a run has a budget. -/
  unbudgeted : ∀ spent, error ≠ .budgetExhausted spent

private theorem step_eq_error {before after : System}
    (failed : step wiring depth before = some (.error error, after)) :
    ∃ world, move wiring depth before.machine.ipAddress before.world =
        some (.error error, world) ∧ after = before.setWorld world := by
  rw [step_eq] at failed
  obtain ⟨⟨_, world⟩, ran, same⟩ := Option.map_eq_some_iff.1 failed
  cases same
  exact ⟨world, ran, rfl⟩

private theorem last_of_ofInt?_add_two {word : Word}
    (beyond : Word.ofInt? (word.toInt + 2) = none) :
    word.toInt = 2 ^ 63 - 2 ∨ word.toInt = 2 ^ 63 - 1 := by
  have least := word.minValue_le_toInt
  have greatest := word.toInt_le
  have last : Int64.maxValue.toInt = 2 ^ 63 - 1 := by decide
  unfold Word.ofInt? at beyond
  split at beyond
  · cases beyond
  · omega

/--
A failed step. Whatever stops a step, the machine counts nothing. A step that halted or that
fetched a word below zero changed nothing, if it fetched plain cells. A step that stopped at a
word that is not below zero had read it from the pointer, one of the last two words there are,
and had made the move without a write to the pointer's cell. Any other step was stopped by the
error of a trigger that it called.
-/
theorem failed_of_step {wiring : Wiring} {depth : Nat} {before after : System}
    {error : MachineError} (stepped : step wiring depth before = some (.error error, after)) :
    Failed wiring depth before error after := by
  obtain ⟨world, moved, rfl⟩ := step_eq_error stepped
  have exits := exit_of_move moved
  refine ⟨rfl, rfl, rfl, ?_, ?_, ?_, ?_, ?_, ?_⟩
  · rintro rfl
    cases exits with
    | halted pointer => exact pointer
  · rintro word rfl below
    cases exits with
    | negative fetches read _ => exact ⟨_, _, fetches, read⟩
    | overflow isFetched _ _ _ =>
      obtain ⟨_, _, nonnegative⟩ := fetch_eq_ok isFetched
      exact absurd below (Int64.not_lt.2 nonnegative)
  · intro stopped plain
    have unchanged : world = before.world := by
      cases exits with
      | halted pointer => exact eq_of_readCell (plain _ _ .pointer) pointer
      | negative fetches read _ =>
        obtain rfl := fetches.eq_start plain
        exact eq_of_readCell (plain _ _ fetches) read
      | raised _ _ => rcases stopped with stopped | ⟨_, _, stopped⟩ <;> cases stopped
      | overflow isFetched _ _ _ =>
        obtain ⟨_, _, nonnegative⟩ := fetch_eq_ok isFetched
        rcases stopped with stopped | ⟨word, below, stopped⟩ <;> cases stopped
        exact absurd below (Int64.not_lt.2 nonnegative)
    rw [unchanged]
    rfl
  · rintro word rfl nonnegative
    cases exits with
    | negative _ _ below => exact absurd below (Int64.not_lt.2 nonnegative)
    | @overflow operands fetched _ value isFetched isMoved unwritten beyond =>
      obtain ⟨pointed, pointer, -⟩ := fetch_eq_ok isFetched
      obtain ⟨writes, logged, tally⟩ := transfer_logged isMoved
      refine ⟨last_of_ofInt?_add_two beyond, ⟨pointed, pointer⟩, operands, fetched, value, writes,
        isFetched, rfl, isMoved, logged, ?_⟩
      intro listed
      have written := tally.written before.machine.ipAddress listed
      rw [unwritten] at written
      cases written
  · rintro cause rfl
    cases exits with
    | raised comes raised => exact ⟨_, _, comes, raised⟩
  · rintro spent rfl
    cases exits

/--
A move from the last two cells that a word names. Its write is noted and answered by a trigger
that sets the pointer back, which is no jump, and so the step fails with all of this done.
-/
theorem failed_of_step_last :
    let wiring : Wiring := { writes := #[fun word =>
      .host (fun host => (0, host.record "seen" word)) fun _ => .poke 0 4 (.done 0)] }
    let last : Word := 9223372036854775806
    let memory := (((({} : Memory).poke 0 last).poke 5 9).poke 9223372036854775806 5).poke
      9223372036854775807 6 |>.addWriteTriggers 6 [⟨none, 0⟩] false
    ∃ after, step wiring 1 ⟨{ memory }, {}⟩ = some (.error (.invalidAddress last), after) ∧
      Failed wiring 1 ⟨{ memory }, {}⟩ (.invalidAddress last) after ∧
      after.machine.memory.stored 6 = some 9 ∧ after.machine.memory.stored 0 = some 4 ∧
      after.host.journal.toList = [("seen", 9)] := by
  intro wiring last memory
  have computed : (step wiring 1 ⟨{ memory }, {}⟩).map (fun outcome =>
      (outcome.1, outcome.2.machine.memory.stored 6, outcome.2.machine.memory.stored 0,
        outcome.2.host.journal.toList)) =
      some (.error (.invalidAddress last), some 9, some 4, [("seen", 9)]) := by
    decide
  obtain ⟨⟨_, after⟩, stepped, views⟩ := Option.map_eq_some_iff.1 computed
  simp only [Prod.mk.injEq] at views
  obtain ⟨rfl, target, pointer, journal⟩ := views
  exact ⟨after, stepped, failed_of_step stepped, target, pointer, journal⟩

end MoveMachine.Machine
