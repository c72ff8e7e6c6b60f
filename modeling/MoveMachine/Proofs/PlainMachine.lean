import MoveMachine.Proofs.Devices
import MoveMachine.Proofs.Reachable

set_option autoImplicit false

namespace MoveMachine

/-- A word at every address, with the addresses that were assigned to, oldest first. -/
structure PlainStore where
  contents : Address → Word
  assigned : List Address := []

namespace PlainStore

def assign (store : PlainStore) (address : Address) (value : Word) : PlainStore where
  contents other := if address = other then value else store.contents other
  assigned := store.assigned ++ [address]

def address (word : Word) : Except MachineError Address :=
  if word < 0 then .error (.invalidAddress word) else .ok word.toUInt64

def fetch (place : Address) (store : PlainStore) : Except MachineError Operands := do
  let ipWord := store.contents place
  if ipWord = 0 then throw .halted
  else
    let ip ← address ipWord
    let source ← address (store.contents ip)
    let target ← address (store.contents (ip + 1))
    return { ipWord, ip, source, target }

def transfer (place : Address) (operands : Operands) (store : PlainStore) :
    Except MachineError Move × PlainStore :=
  let value := store.contents operands.source
  let moved := store.assign operands.target value
  if operands.target = place then (.ok (operands.made value true), moved)
  else if Int64.maxValue.toInt < operands.ipWord.toInt + 2 then
    (.error (.invalidAddress operands.ipWord), moved)
  else (.ok (operands.made value false), moved.assign place (operands.ipWord + 2))

def step (place : Address) (store : PlainStore) : Except MachineError Move × PlainStore :=
  match store.fetch place with
  | .ok operands => store.transfer place operands
  | .error error => (.error error, store)

def run (place : Address) : Nat → Nat → PlainStore → Except MachineError Nat × PlainStore
  | 0, made, store =>
    if store.contents place = 0 then (.ok made, store)
    else (.error (.budgetExhausted made), store)
  | budget + 1, made, store =>
    match store.step place with
    | (.ok _, after) => run place budget (made + 1) after
    | (.error .halted, after) => (.ok made, after)
    | (.error error, after) => (.error error, after)

end PlainStore

namespace Memory

structure Untriggered (memory : Memory) : Prop where
  readTrigger : ∀ address, memory.readTrigger address = none
  writeTriggers : ∀ address, memory.writeTriggers address = []

theorem untriggered_empty : Untriggered {} := by
  refine ⟨fun address => ?_, fun address => ?_⟩
  · simp only [readTrigger, cell_empty]
  · simp only [writeTriggers, cell_empty]

theorem Untriggered.update {memory : Memory} (untriggered : memory.Untriggered)
    (address : Address) {change : Cell → Cell}
    (onRead : ∀ cell, (change cell).onRead = cell.onRead)
    (onWrite : ∀ cell, (change cell).onWrite = cell.onWrite) :
    (memory.update address change).Untriggered := by
  refine ⟨fun place => ?_, fun place => ?_⟩
  · simp only [Memory.readTrigger, cell_update]
    split
    · rw [onRead]
      exact untriggered.readTrigger address
    · exact untriggered.readTrigger place
  · simp only [Memory.writeTriggers, cell_update]
    split
    · rw [onWrite]
      exact untriggered.writeTriggers address
    · exact untriggered.writeTriggers place

theorem Untriggered.poke {memory : Memory} (untriggered : memory.Untriggered)
    (address : Address) (value : Word) : (memory.poke address value).Untriggered :=
  untriggered.update address (fun _ => rfl) fun _ => rfl

theorem Untriggered.record {memory : Memory} (untriggered : memory.Untriggered)
    (address : Address) (value : Word) : (memory.record address value).Untriggered :=
  have later : Untriggered { memory with clock := memory.clock + 1 } :=
    ⟨untriggered.readTrigger, untriggered.writeTriggers⟩
  later.update address (fun _ => rfl) fun _ => rfl

def plain (memory : Memory) : PlainStore where
  contents := memory.peek

end Memory

/-- A store that shows what a memory without triggers holds, and what was set since a start. -/
structure PlainStore.Pictures (start : Memory) (store : PlainStore) (memory : Memory) : Prop where
  peek : ∀ address, memory.peek address = store.contents address
  stored : ∀ address, (memory.stored address).isSome = true ↔
    (start.stored address).isSome = true ∨ address ∈ store.assigned
  symbols : memory.symbols = start.symbols
  untriggered : memory.Untriggered
  stamped : memory.Stamped

/-- A store that shows what a system without triggers came to, with the rest of it as before. -/
structure PlainStore.Tracks (before : System) (store : PlainStore) (after : System) : Prop where
  memory : store.Pictures before.machine.memory after.machine.memory
  ipAddress : after.machine.ipAddress = before.machine.ipAddress
  host : after.host = before.host

namespace PlainStore.Pictures

variable {start memory : Memory} {store : PlainStore}

theorem refl (untriggered : memory.Untriggered) (stamped : memory.Stamped) :
    memory.plain.Pictures memory memory where
  peek _ := rfl
  stored address := by simp [Memory.plain]
  symbols := rfl
  untriggered := untriggered
  stamped := stamped

theorem record (pictures : store.Pictures start memory) (address : Address) (value : Word) :
    (store.assign address value).Pictures start (memory.record address value) where
  peek := by
    intro place
    have before := pictures.peek place
    simp only [Memory.peek, Memory.stored, Memory.cell_record, assign] at before ⊢
    split
    · rfl
    · exact before
  stored := by
    intro place
    have before := pictures.stored place
    simp only [Memory.stored, Memory.cell_record, assign, List.mem_append,
      List.mem_singleton] at before ⊢
    by_cases same : address = place
    · subst same
      simp
    · have other : ¬place = address := fun equal => same equal.symm
      simp only [if_neg same, other, or_false, before]
  symbols := pictures.symbols
  untriggered := pictures.untriggered.record address value
  stamped := pictures.stamped.record address value

end PlainStore.Pictures

namespace Machine

variable {start : Memory} {world : World} {store : PlainStore}

private theorem readCell_pictured (pictures : store.Pictures start world.memory)
    (wiring : Wiring) (depth : Nat) (address : Address) :
    readCell wiring depth address world = some (.ok (store.contents address), world) := by
  rw [← pictures.peek address]
  exact Action.mapError_eq_ok.2
    (Access.readVia_plain rfl (pictures.untriggered.readTrigger address))

private theorem writeCell_pictured (pictures : store.Pictures start world.memory)
    (wiring : Wiring) (depth : Nat) (address : Address) (value : Word) :
    writeCell wiring depth address value world =
      some (.ok (), { world with memory := world.memory.record address value }) :=
  Action.mapError_eq_ok.2
    (Access.writeVia_plain (pictures.untriggered.writeTriggers address) value)

private theorem toAddress_looked (word : Word) (world : World) :
    toAddress word world = some (PlainStore.address word, world) := by
  unfold toAddress PlainStore.address Address.ofWord?
  by_cases negative : word < 0
  · simp only [if_pos negative]
    rfl
  · simp only [if_neg negative]
    rfl

private theorem fetch_pictured (pictures : store.Pictures start world.memory)
    (wiring : Wiring) (depth : Nat) (place : Address) :
    fetch wiring depth place world = some (store.fetch place, world) := by
  have read := readCell_pictured pictures wiring depth
  unfold fetch
  rw [Action.bind_of_ok (read place)]
  by_cases halted : store.contents place = 0
  · simp only [PlainStore.fetch, if_pos halted]
    rfl
  · simp only [PlainStore.fetch, if_neg halted]
    apply Action.bind_looked (toAddress_looked _ world)
    intro ip
    rw [Action.bind_of_ok (read ip)]
    apply Action.bind_looked (toAddress_looked _ world)
    intro source
    rw [Action.bind_of_ok (read (ip + 1))]
    apply Action.bind_looked (toAddress_looked _ world)
    intro target
    rfl

private theorem ofInt?_add_two (word : Word) :
    Word.ofInt? (word.toInt + 2) =
      if Int64.maxValue.toInt < word.toInt + 2 then none else some (word + 2) := by
  have least := word.minValue_le_toInt
  have order : Int64.minValue.toInt < Int64.maxValue.toInt := by decide
  have sum : Int64.ofInt (word.toInt + 2) = word + 2 := by
    rw [Int64.ofInt_add, Int64.ofInt_toInt]
    rfl
  unfold Word.ofInt?
  by_cases beyond : Int64.maxValue.toInt < word.toInt + 2
  · rw [if_pos beyond, if_neg (by omega)]
  · rw [if_neg beyond, if_pos (by omega), sum]

private theorem move_pictured (pictures : store.Pictures start world.memory)
    (wiring : Wiring) (depth : Nat) (place : Address) :
    ∃ memory, move wiring depth place world =
        some ((store.step place).1, { world with memory }) ∧
      (store.step place).2.Pictures start memory := by
  have fetched := fetch_pictured pictures wiring depth place
  unfold PlainStore.step
  cases found : store.fetch place with
  | error error =>
    rw [found] at fetched
    rw [move, Action.bind_apply, fetched]
    exact ⟨world.memory, rfl, pictures⟩
  | ok operands =>
    rw [found] at fetched
    have value := readCell_pictured pictures wiring depth operands.source
    have written := writeCell_pictured pictures wiring depth operands.target
      (store.contents operands.source)
    have recorded := pictures.record operands.target (store.contents operands.source)
    have jumped := pictures.stamped.writtenSince_record operands.target place
      (store.contents operands.source)
    have transferred : transfer wiring depth operands.source operands.target world = _ :=
      (Action.bind_of_ok value).trans (Action.bind_of_ok written)
    rw [move_of_transfer fetched transferred]
    unfold PlainStore.transfer
    by_cases same : operands.target = place
    · rw [if_pos (jumped.2 same)]
      simp only [if_pos same]
      exact ⟨_, rfl, recorded⟩
    · rw [if_neg fun tested => same (jumped.1 tested)]
      simp only [if_neg same]
      unfold advance
      rw [ofInt?_add_two]
      by_cases beyond : Int64.maxValue.toInt < operands.ipWord.toInt + 2
      · simp only [if_pos beyond]
        exact ⟨_, rfl, recorded⟩
      · simp only [if_neg beyond]
        rw [Action.bind_of_ok (writeCell_pictured recorded ..)]
        exact ⟨_, rfl, recorded.record place (operands.ipWord + 2)⟩

private theorem step_tracked {before system : System} (tracks : store.Tracks before system)
    (wiring : Wiring) (depth : Nat) :
    ∃ after, step wiring depth system =
        some ((store.step before.machine.ipAddress).1, after) ∧
      (store.step before.machine.ipAddress).2.Tracks before after := by
  obtain ⟨pictures, ipAddress, host⟩ := tracks
  have worldPictures : store.Pictures before.machine.memory system.world.memory := pictures
  obtain ⟨memory, moved, picturesAfter⟩ :=
    move_pictured worldPictures wiring depth before.machine.ipAddress
  rw [step_eq, ipAddress, moved]
  cases (store.step before.machine.ipAddress).1 with
  | ok made => exact ⟨_, rfl, picturesAfter, ipAddress, host⟩
  | error error => exact ⟨_, rfl, picturesAfter, ipAddress, host⟩

private theorem isHalted_tracked {before system : System} (tracks : store.Tracks before system)
    (wiring : Wiring) (depth : Nat) :
    isHalted wiring depth system =
      some (.ok (store.contents before.machine.ipAddress = 0), system) := by
  have worldPictures : store.Pictures before.machine.memory system.world.memory := tracks.memory
  have read := readCell_pictured worldPictures wiring depth system.machine.ipAddress
  rw [isHalted_eq, read, tracks.ipAddress]
  rfl

private theorem run_tracked {before system : System} (tracks : store.Tracks before system)
    (wiring : Wiring) (depth budget made : Nat) :
    ∃ after, run.go wiring depth budget made system =
        some ((store.run before.machine.ipAddress budget made).1, after) ∧
      (store.run before.machine.ipAddress budget made).2.Tracks before after := by
  -- Each move changes the store and the number of moves made, so both are left open.
  induction budget generalizing made store system with
  | zero =>
    unfold run.go PlainStore.run
    rw [Action.bind_of_ok (isHalted_tracked tracks wiring depth)]
    by_cases halted : store.contents before.machine.ipAddress = 0
    · simp only [halted]
      exact ⟨system, rfl, tracks⟩
    · simp only [halted]
      exact ⟨system, rfl, tracks⟩
  | succ budget ih =>
    obtain ⟨after, stepped, tracksAfter⟩ := step_tracked tracks wiring depth
    unfold run.go PlainStore.run
    rw [stepped]
    generalize store.step before.machine.ipAddress = outcome at tracksAfter
    obtain ⟨result, moved⟩ := outcome
    cases result with
    | ok _ => exact ih tracksAfter (made + 1)
    | error error =>
      cases error with
      | halted => exact ⟨after, rfl, tracksAfter⟩
      | budgetExhausted _ => exact ⟨after, rfl, tracksAfter⟩
      | invalidAddress _ => exact ⟨after, rfl, tracksAfter⟩
      | memory _ => exact ⟨after, rfl, tracksAfter⟩

private theorem toNat_add_one {word : Word} {ip : Address}
    (named : Address.ofWord? word = some ip) : (ip + 1).toNat = ip.toNat + 1 := by
  obtain ⟨nonnegative, rfl⟩ := Address.ofWord?_eq_some_iff.1 named
  have below := word.toNatClampNeg_lt
  rw [UInt64.toNat_add, Int64.toNat_toUInt64_of_le nonnegative, UInt64.toNat_one]
  omega

/--
A reachable machine without triggers runs as its plain store does, wherever its pointer lies:
with the same result, the same word at every address, values set just where they were set
before or assigned, and with its symbols, its host and the absence of triggers kept. The
address after that of a fetched move never wraps.
-/
theorem Reachable.run_plain {machine : Machine} (reachable : machine.Reachable)
    (untriggered : machine.memory.Untriggered) (place : Address) (wiring : Wiring)
    (depth budget : Nat) (host : Host) :
    (∃ after, run wiring depth budget ⟨{ machine with ipAddress := place }, host⟩ =
        some ((machine.memory.plain.run place budget 0).1, after) ∧
      (machine.memory.plain.run place budget 0).2.Tracks
        ⟨{ machine with ipAddress := place }, host⟩ after) ∧
    ∀ word ip, Address.ofWord? word = some ip → (ip + 1).toNat = ip.toNat + 1 := by
  refine ⟨?_, fun word ip => toNat_add_one⟩
  have pictures := PlainStore.Pictures.refl untriggered reachable.stamped
  have tracks : machine.memory.plain.Tracks ⟨{ machine with ipAddress := place }, host⟩
      ⟨{ machine with ipAddress := place }, host⟩ := ⟨pictures, rfl, rfl⟩
  exact run_tracked tracks wiring depth budget 0

/-- The first move turns the second, which would write cell 6, into the one that halts. -/
theorem Reachable.run_plain_selfModifying :
    let memory := ((((({} : Memory).poke 0 2).poke 2 7).poke 3 5).poke 4 8).poke 5 6
    ∃ after, run {} 0 3 ⟨{ memory }, {}⟩ = some (.ok 2, after) ∧
      after.machine.memory.peek 5 = 0 ∧ after.machine.memory.stored 6 = none := by
  intro memory
  have reachable : Reachable { memory } :=
    (((((Reachable.start 0).poke 0 2).poke 2 7).poke 3 5).poke 4 8).poke 5 6
  have untriggered : memory.Untriggered :=
    ((((Memory.untriggered_empty.poke 0 2).poke 2 7).poke 3 5).poke 4 8).poke 5 6
  obtain ⟨⟨after, ran, tracks⟩, -⟩ := reachable.run_plain untriggered 0 {} 0 3 {}
  have halts : (memory.plain.run 0 3 0).1 = .ok 2 := by decide
  rw [halts] at ran
  have changed : (memory.plain.run 0 3 0).2.contents 5 = 0 := by decide
  have unset : (memory.stored 6).isSome = false := by decide
  have unassigned : 6 ∉ (memory.plain.run 0 3 0).2.assigned := by decide
  refine ⟨after, ran, (tracks.memory.peek 5).trans changed, ?_⟩
  have exactly := tracks.memory.stored 6
  simpa [unset, unassigned] using exactly

end Machine

end MoveMachine
