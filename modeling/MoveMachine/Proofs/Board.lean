import MoveMachine.Proofs.Moves
import MoveMachine.Proofs.Passive
import MoveMachine.Proofs.Stamps

/-!
Machines over the base layout. A board has a word or nothing at every address, and a console: no
clock, no stamps and no notes of what was observed. Its moves are assignments, but for the cells
at which the base layout has its devices. A machine whose memory carries those devices and no
others makes every move that its board makes, so a program over the base layout can be followed
on the board.
-/

set_option autoImplicit false

namespace MoveMachine

/-- What a machine over the base layout holds. -/
structure Board where
  stored : Address → Option Word
  console : Console

namespace Board

def word (board : Board) (address : Address) : Word := (board.stored address).getD 0

def set (board : Board) (address : Address) (value : Word) : Board :=
  { board with stored := fun other => if address = other then some value else board.stored other }

def devices : List (Address × ReadTrigger) :=
  [(4, ⟨some "add", 0⟩), (5, ⟨some "sub", 1⟩), (6, ⟨some "mul", 2⟩), (7, ⟨some "div", 3⟩),
    (8, ⟨some "gt", 4⟩), (9, ⟨some "lt", 5⟩), (10, ⟨some "eq", 6⟩), (11, ⟨some "getchar", 10⟩),
    (13, ⟨some "not", 8⟩), (14, ⟨some "xor", 7⟩), (15, ⟨some "ter", 9⟩)]

def read (address : Address) (board : Board) : Word × Board :=
  match devices.lookup address with
  | none => (board.word address, board)
  | some trigger =>
    match Device.operations[trigger.id]? with
    | some op => (op (board.word 1) (board.word 2) (board.word 3), board)
    | none => (board.console.get.1, { board with console := board.console.get.2 })

/-- Sets a word. What is set at 12 is also put on the console. -/
def write (address : Address) (value : Word) (board : Board) : Board :=
  let written := board.set address value
  if address = 12 then { written with console := written.console.put value } else written

/-- The operands of the move at the word of address 0, unless there is none. -/
def fetch (board : Board) : Option (Operands × Board) :=
  let ipWord := board.word 0
  if ipWord = 0 then none
  else do
    let ip ← Address.ofWord? ipWord
    let (sourceWord, board) := board.read ip
    let source ← Address.ofWord? sourceWord
    let (targetWord, board) := board.read (ip + 1)
    let target ← Address.ofWord? targetWord
    return ({ ipWord, ip, source, target }, board)

def transfer (operands : Operands) (board : Board) : Option Board :=
  let (value, board) := board.read operands.source
  let moved := board.write operands.target value
  if operands.target = 0 then some moved
  else (Word.ofInt? (operands.ipWord.toInt + 2)).map fun next => moved.write 0 next

def step (board : Board) : Option Board := do
  let (operands, board) ← board.fetch
  board.transfer operands

def steps : Nat → Board → Option Board
  | 0, board => some board
  | count + 1, board => board.step.bind (steps count)

@[simp] theorem stored_set (board : Board) (address other : Address) (value : Word) :
    (board.set address value).stored other =
      if address = other then some value else board.stored other := rfl

@[simp] theorem console_set (board : Board) (address : Address) (value : Word) :
    (board.set address value).console = board.console := rfl

theorem word_set (board : Board) (address other : Address) (value : Word) :
    (board.set address value).word other =
      if address = other then value else board.word other := by
  simp only [word, stored_set]
  split <;> rfl

@[simp] theorem word_set_self (board : Board) (address : Address) (value : Word) :
    (board.set address value).word address = value := by
  rw [word_set, if_pos rfl]

theorem steps_add (first second : Nat) (board : Board) :
    board.steps (first + second) = (board.steps first).bind (steps second) := by
  induction first generalizing board with
  | zero => simp [steps]
  | succ first ih =>
    rw [Nat.add_right_comm, steps, steps]
    cases board.step with
    | none => rfl
    | some next => exact ih next

theorem word_of_stored {board : Board} {address : Address} {value : Word}
    (stored : board.stored address = some value) : board.word address = value := by
  rw [word, stored]
  rfl

theorem read_plain {board : Board} {address : Address} {value : Word}
    (found : board.word address = value) (plain : devices.lookup address = none) :
    board.read address = (value, board) := by
  rw [read, plain, found]

theorem write_of_ne {address : Address} (aside : address ≠ 12) (value : Word) (board : Board) :
    board.write address value = board.set address value := by
  rw [write, if_neg aside]

theorem step_eq {board : Board} {operands : Operands} (running : operands.ipWord ≠ 0)
    (ipFound : Address.ofWord? operands.ipWord = some operands.ip)
    (plain : devices.lookup operands.ip = none)
    (plainNext : devices.lookup (operands.ip + 1) = none)
    (pointed : board.word 0 = operands.ipWord)
    (sourceFound : Address.ofWord? (board.word operands.ip) = some operands.source)
    (targetFound : Address.ofWord? (board.word (operands.ip + 1)) = some operands.target) :
    board.step = board.transfer operands := by
  have fetched : board.fetch = some (operands, board) := by
    simp [fetch, read, pointed, running, ipFound, plain, plainNext, sourceFound, targetFound]
  rw [step, fetched]
  rfl

/-- A board has the words of a listing. -/
def Holds (board : Board) (listing : List (Address × Word)) : Prop :=
  ∀ entry ∈ listing, board.word entry.1 = entry.2

section Listing

variable {board : Board} {listing : List (Address × Word)}

theorem Holds.word (holds : board.Holds listing) {address : Address} {value : Word}
    (listed : listing.lookup address = some value) : board.word address = value := by
  obtain ⟨before, after, split, -⟩ := List.lookup_eq_some_iff.1 listed
  exact holds (address, value) (by simp [split])

theorem Holds.mono (holds : board.Holds listing) {part : List (Address × Word)}
    (within : part ⊆ listing) : board.Holds part :=
  fun entry listed => holds entry (within listed)

theorem Holds.cons (holds : board.Holds listing) {address : Address} {value : Word}
    (found : board.word address = value) : board.Holds ((address, value) :: listing) :=
  List.forall_mem_cons.2 ⟨found, holds⟩

theorem Holds.set (holds : board.Holds listing) {address : Address}
    (aside : address ∉ listing.map Prod.fst) (value : Word) :
    (board.set address value).Holds listing := by
  intro entry listed
  have apart : address ≠ entry.1 := fun same => aside (same ▸ List.mem_map_of_mem listed)
  rw [word_set, if_neg apart]
  exact holds entry listed

theorem Holds.read (holds : board.Holds listing) {address : Address} {value : Word}
    (listed : listing.lookup address = some value) (plain : devices.lookup address = none) :
    board.read address = (value, board) :=
  read_plain (holds.word listed) plain

/-- A listing has the move with these operands, at two cells without devices. -/
def Lists (listing : List (Address × Word)) (operands : Operands) : Prop :=
  operands.ipWord ≠ 0 ∧ Address.ofWord? operands.ipWord = some operands.ip ∧
    devices.lookup operands.ip = none ∧ devices.lookup (operands.ip + 1) = none ∧
    (listing.lookup operands.ip).bind Address.ofWord? = some operands.source ∧
    (listing.lookup (operands.ip + 1)).bind Address.ofWord? = some operands.target

instance (listing : List (Address × Word)) (operands : Operands) :
    Decidable (Lists listing operands) :=
  inferInstanceAs (Decidable (_ ∧ _))

theorem Holds.step (holds : board.Holds listing) {operands : Operands}
    (pointed : board.word 0 = operands.ipWord) (lists : Lists listing operands) :
    board.step = board.transfer operands := by
  obtain ⟨running, ipFound, plain, plainNext, atIp, afterIp⟩ := lists
  obtain ⟨sourceWord, listed, sourceFound⟩ := Option.bind_eq_some_iff.1 atIp
  obtain ⟨targetWord, listedNext, targetFound⟩ := Option.bind_eq_some_iff.1 afterIp
  refine step_eq running ipFound plain plainNext pointed ?_ ?_
  · rw [holds.word listed, sourceFound]
  · rw [holds.word listedNext, targetFound]

theorem Holds.jump {looked : Board} (holds : board.Holds listing) (ip source : Address)
    {ipWord value : Word} (pointed : board.word 0 = ipWord)
    (lists : Lists listing ⟨ipWord, ip, source, 0⟩)
    (found : board.read source = (value, looked)) : board.step = some (looked.set 0 value) := by
  have made : board.step = board.transfer ⟨ipWord, ip, source, 0⟩ := holds.step pointed lists
  rw [made, transfer, found]
  rfl

theorem Holds.move {looked : Board} (holds : board.Holds listing)
    (ip source target : Address) {ipWord value next : Word} (pointed : board.word 0 = ipWord)
    (lists : Lists listing ⟨ipWord, ip, source, target⟩)
    (found : board.read source = (value, looked)) (aside : target ≠ 0)
    (further : Word.ofInt? (ipWord.toInt + 2) = some next) :
    board.step = some ((looked.write target value).set 0 next) := by
  have made : board.step = board.transfer ⟨ipWord, ip, source, target⟩ := holds.step pointed lists
  rw [made, transfer, found]
  simp only [if_neg aside, further]
  rfl

end Listing

theorem output_read (address : Address) (board : Board) :
    (board.read address).2.console.output = board.console.output := by
  simp only [read]
  split
  · rfl
  · split
    · rfl
    · simp only [Console.get]
      split <;> rfl

theorem output_write (address : Address) (value : Word) (board : Board) :
    board.console.output.toList <+: (board.write address value).console.output.toList := by
  simp only [write]
  split
  · simp [Console.put]
  · exact List.prefix_rfl

theorem output_step {board next : Board} (stepped : board.step = some next) :
    board.console.output.toList <+: next.console.output.toList := by
  obtain ⟨⟨operands, looked⟩, fetched, transferred⟩ := Option.bind_eq_some_iff.1 stepped
  have lookedOutput : looked.console.output = board.console.output := by
    simp only [fetch] at fetched
    split at fetched
    · cases fetched
    · simp only [Option.bind_eq_bind, Option.bind_eq_some_iff] at fetched
      obtain ⟨ip, -, source, -, target, -, same⟩ := fetched
      cases same
      rw [output_read, output_read]
  have writtenOutput := output_write operands.target (looked.read operands.source).1
    (looked.read operands.source).2
  rw [output_read, lookedOutput] at writtenOutput
  simp only [transfer] at transferred
  split at transferred
  · cases transferred
    exact writtenOutput
  · obtain ⟨further, -, rfl⟩ := Option.map_eq_some_iff.1 transferred
    exact writtenOutput.trans (output_write 0 further _)

theorem output_steps {count : Nat} {board final : Board}
    (stepped : board.steps count = some final) :
    board.console.output.toList <+: final.console.output.toList := by
  induction count generalizing board with
  | zero =>
    cases stepped
    exact List.prefix_rfl
  | succ count ih =>
    obtain ⟨next, first, rest⟩ := Option.bind_eq_some_iff.1 stepped
    exact (output_step first).trans (ih rest)

theorem steps_of_lt {board final : Board} {count later : Nat}
    (stepped : board.steps later = some final) (before : count < later) :
    ∃ between, board.steps count = some between ∧ between.word 0 ≠ 0 ∧
      between.steps (later - count) = some final := by
  obtain ⟨rest, rfl⟩ : ∃ rest, later = count + (rest + 1) := ⟨later - count - 1, by omega⟩
  rw [steps_add, Option.bind_eq_some_iff] at stepped
  obtain ⟨between, reached, goesOn⟩ := stepped
  refine ⟨between, reached, fun zero => ?_, by simpa using goesOn⟩
  have stuck : between.fetch = none := by simp [Board.fetch, zero]
  simp [steps, step, stuck] at goesOn

end Board

/-- The names and the devices are those of the base layout, and no cell has other triggers. -/
structure Memory.BaseWired (memory : Memory) : Prop where
  a : memory.symbols.resolve "A" = some 1
  b : memory.symbols.resolve "B" = some 2
  c : memory.symbols.resolve "C" = some 3
  readTrigger : ∀ address, memory.readTrigger address = Board.devices.lookup address
  writeTriggers : ∀ address, memory.writeTriggers address =
    if address = 12 then [⟨some "putchar", 0⟩] else []

theorem Memory.BaseWired.registers {memory : Memory} (wired : memory.BaseWired) :
    memory.Registers where
  a := wired.a
  b := wired.b
  c := wired.c
  plainA := wired.readTrigger 1
  plainB := wired.readTrigger 2
  plainC := wired.readTrigger 3

theorem Memory.BaseWired.sameWiring {before after : Memory} (wired : before.BaseWired)
    (same : before.SameWiring after) : after.BaseWired where
  a := by rw [same.symbols, wired.a]
  b := by rw [same.symbols, wired.b]
  c := by rw [same.symbols, wired.c]
  readTrigger address := (same.readTrigger address).trans (wired.readTrigger address)
  writeTriggers address := (same.writeTriggers address).trans (wired.writeTriggers address)

namespace Board

/-- A world that holds what a board holds, with the devices of the base layout. -/
structure Shows (board : Board) (world : World) : Prop where
  stored : ∀ address, world.memory.stored address = board.stored address
  wired : world.memory.BaseWired
  stamped : world.memory.Stamped
  console : world.host.console = board.console

namespace Shows

variable {board : Board} {world : World}

theorem peek (shows : board.Shows world) (address : Address) :
    world.memory.peek address = board.word address := by
  rw [Memory.peek, shows.stored, word]

private theorem quiet_observe (memory : Memory) (address : Address) (value : Word) :
    memory.Quiet (memory.observe address value) :=
  Memory.Change.quiet (.observe address value) rfl memory

theorem observe (shows : board.Shows world) (address : Address) (value : Word) :
    board.Shows { world with memory := world.memory.observe address value } where
  stored other := (world.memory.stored_observe address other value).trans (shows.stored other)
  wired := shows.wired.sameWiring (.observe ..)
  stamped := shows.stamped.quiet (quiet_observe world.memory address value)
  console := shows.console

theorem record (shows : board.Shows world) (address : Address) (value : Word) :
    (board.set address value).Shows
      { world with memory := world.memory.record address value } where
  stored other := by
    rw [Memory.stored_record, stored_set, shows.stored]
  wired := shows.wired.sameWiring (.record ..)
  stamped := shows.stamped.record address value
  console := shows.console

theorem read (shows : board.Shows world) (depth : Nat) (address : Address) :
    ∃ after, Machine.readCell .standard (depth + 1) address world =
        some (.ok (board.read address).1, after) ∧
      (board.read address).2.Shows after ∧ world.memory.Quiet after.memory := by
  simp only [Machine.readCell, Action.mapError_eq_ok]
  cases device : devices.lookup address with
  | none =>
    have plain := (shows.wired.readTrigger address).trans device
    have raw : board.read address = (world.memory.peek address, board) := by
      simp [Board.read, device, shows.peek]
    rw [raw]
    exact ⟨world, Access.readVia_plain rfl plain, shows, .refl _⟩
  | some trigger =>
    have triggered := (shows.wired.readTrigger address).trans device
    cases operation : Device.operations[trigger.id]? with
    | some op =>
      have computed : board.read address = (op (world.memory.peek 1) (world.memory.peek 2)
          (world.memory.peek 3), board) := by
        simp [Board.read, device, operation, shows.peek]
      have answered := Device.computes_standard operation trigger.label .standard depth world
        shows.wired.registers
      rw [computed]
      exact ⟨_, Access.readVia_computed triggered answered, shows.observe address _,
        quiet_observe ..⟩
    | none =>
      have input : trigger = ⟨some "getchar", 10⟩ := by
        have others : ∀ entry ∈ devices, (Device.operations[entry.2.id]?).isNone = true →
            entry.2 = ⟨some "getchar", 10⟩ := by decide
        obtain ⟨before, after, split, -⟩ := List.lookup_eq_some_iff.1 device
        exact others (address, trigger) (by simp [split]) (by simp [operation])
      have taken : board.read address = (world.host.console.get.1,
          { board with console := world.host.console.get.2 }) := by
        simp [Board.read, device, operation, shows.console]
      let after : World := { world with host := world.host.getWord.2 }
      have answered : Access.callRead .standard (depth + 1) trigger world =
          some (.ok world.host.console.get.1, after) := by rw [input]; rfl
      have showsAfter : Shows { board with console := world.host.console.get.2 } after :=
        ⟨shows.stored, shows.wired, shows.stamped, rfl⟩
      rw [taken]
      exact ⟨_, Access.readVia_computed triggered answered, showsAfter.observe address _,
        quiet_observe ..⟩

theorem write (shows : board.Shows world) (depth : Nat) (address : Address) (value : Word) :
    ∃ after, Machine.writeCell .standard (depth + 1) address value world = some (.ok (), after) ∧
      (board.write address value).Shows after ∧
      after.memory = world.memory.record address value := by
  simp only [Machine.writeCell, Action.mapError_eq_ok]
  have recorded := shows.record address value
  have triggers := shows.wired.writeTriggers address
  by_cases output : address = 12
  · rw [if_pos output] at triggers
    let after : World := ⟨world.memory.record address value, world.host.putWord value⟩
    have ran : Access.callWrite .standard (depth + 1) ⟨some "putchar", 0⟩ value
        { world with memory := world.memory.record address value } = some (.ok (), after) := rfl
    refine ⟨after, Access.writeVia_single triggers ran, ?_, rfl⟩
    rw [Board.write, if_pos output]
    refine ⟨recorded.stored, recorded.wired, recorded.stamped, ?_⟩
    rw [console_set, ← shows.console]
    rfl
  · rw [if_neg output] at triggers
    refine ⟨_, Access.writeVia_plain triggers value, ?_, rfl⟩
    rw [Board.write, if_neg output]
    exact recorded

private theorem toAddress_of_some {word : Word} {address : Address}
    (found : Address.ofWord? word = some address) (world : World) :
    Machine.toAddress word world = some (.ok address, world) := by
  rw [Machine.toAddress, found]
  rfl

private theorem fetch (shows : board.Shows world) (depth : Nat) {operands : Operands}
    {looked : Board} (fetched : board.fetch = some (operands, looked)) :
    ∃ after, Machine.fetch .standard (depth + 1) 0 world = some (.ok operands, after) ∧
      looked.Shows after := by
  have pointer : board.read 0 = (board.word 0, board) := rfl
  obtain ⟨first, pointed, shows, -⟩ := shows.read depth 0
  rw [pointer] at pointed shows
  simp only [Board.fetch] at fetched
  split at fetched
  · cases fetched
  · rename_i running
    simp only [Option.bind_eq_bind, Option.bind_eq_some_iff] at fetched
    obtain ⟨ip, ipFound, source, sourceFound, target, targetFound, same⟩ := fetched
    obtain ⟨second, sourceRead, shows, -⟩ := shows.read depth ip
    obtain ⟨third, targetRead, shows, -⟩ := shows.read depth (ip + 1)
    cases same
    refine ⟨third, ?_, shows⟩
    rw [Machine.fetch, Action.bind_of_ok pointed, if_neg running,
      Action.bind_of_ok (toAddress_of_some ipFound _), Action.bind_of_ok sourceRead,
      Action.bind_of_ok (toAddress_of_some sourceFound _), Action.bind_of_ok targetRead,
      Action.bind_of_ok (toAddress_of_some targetFound _)]
    rfl

private theorem move (shows : board.Shows world) (depth : Nat) {next : Board}
    (stepped : board.step = some next) :
    ∃ made after, Machine.move .standard (depth + 1) 0 world = some (.ok made, after) ∧
      next.Shows after := by
  obtain ⟨⟨operands, looked⟩, fetched, transferred⟩ := Option.bind_eq_some_iff.1 stepped
  obtain ⟨start, isFetched, shows⟩ := shows.fetch depth fetched
  obtain ⟨seen, isRead, shows, quiet⟩ := shows.read depth operands.source
  have stamped := shows.stamped
  obtain ⟨moved, isWritten, shows, recorded⟩ := shows.write depth operands.target
    (looked.read operands.source).1
  have isMoved : Machine.transfer .standard (depth + 1) operands.source operands.target start =
      some (.ok (looked.read operands.source).1, moved) := by
    rw [Machine.transfer, Action.bind_of_ok isRead, Action.bind_of_ok isWritten]
    rfl
  -- Nothing but the one write moves the clock, since reads and notes of what was read are quiet.
  have tested : moved.memory.writtenSince 0 start.memory.clock = true ↔ operands.target = 0 := by
    rw [recorded, ← quiet.clock]
    exact stamped.writtenSince_record operands.target 0 _
  simp only [Board.transfer] at transferred
  rw [Machine.move_of_transfer isFetched isMoved]
  by_cases jumps : operands.target = 0
  · rw [if_pos jumps] at transferred
    rw [if_pos (tested.2 jumps)]
    cases transferred
    exact ⟨_, moved, rfl, shows⟩
  · rw [if_neg jumps, Option.map_eq_some_iff] at transferred
    rw [if_neg fun jumped => jumps (tested.1 jumped)]
    obtain ⟨further, found, rfl⟩ := transferred
    obtain ⟨after, advanced, shows, -⟩ := shows.write depth 0 further
    have isAdvanced : Machine.advance .standard (depth + 1) 0 operands.ipWord moved =
        some (.ok (), after) := by
      rw [Machine.advance, found]
      exact advanced
    rw [Action.bind_of_ok isAdvanced]
    exact ⟨_, after, rfl, shows⟩

end Shows

/-- A system whose pointer is the cell 0 shows a board. -/
structure Tracks (board : Board) (system : System) : Prop where
  world : board.Shows system.world
  ipAddress : system.machine.ipAddress = 0

namespace Tracks

variable {board : Board} {system : System}

theorem plainPointer (tracks : board.Tracks system) : Machine.PlainPointer system := by
  rw [Machine.PlainPointer, tracks.ipAddress]
  exact tracks.world.wired.readTrigger 0

theorem pointer (tracks : board.Tracks system) : Machine.pointer system = board.word 0 := by
  rw [Machine.pointer, tracks.ipAddress]
  exact tracks.world.peek 0

theorem ip (tracks : board.Tracks system) (depth : Nat) :
    Machine.ip .standard (depth + 1) system = some (.ok (board.word 0), system) := by
  rw [Machine.ip_of_plain tracks.plainPointer, tracks.pointer]

theorem isHalted (tracks : board.Tracks system) (depth : Nat) :
    Machine.isHalted .standard (depth + 1) system = some (.ok (board.word 0 = 0), system) := by
  rw [Machine.isHalted_of_plain tracks.plainPointer, tracks.pointer]

/-- A machine makes the moves that its board makes. -/
theorem makes (tracks : board.Tracks system) (depth : Nat) {count : Nat} {final : Board}
    (stepped : board.steps count = some final) :
    ∃ after, Machine.Makes .standard (depth + 1) count system after ∧ final.Tracks after := by
  induction count generalizing board system with
  | zero =>
    cases stepped
    exact ⟨system, .done system, tracks⟩
  | succ count ih =>
    obtain ⟨next, first, rest⟩ := Option.bind_eq_some_iff.1 stepped
    obtain ⟨made, world, moved, shows⟩ := tracks.world.move depth first
    let counted : System := { system.setWorld world with
      machine := (system.setWorld world).machine.count made }
    have step : Machine.step .standard (depth + 1) system = some (.ok made, counted) := by
      rw [Machine.step_eq, tracks.ipAddress, moved]
      rfl
    have tracksNext : next.Tracks counted := ⟨shows, tracks.ipAddress⟩
    obtain ⟨after, makes, tracksAfter⟩ := ih tracksNext rest
    exact ⟨after, .move step makes, tracksAfter⟩

theorem run_halts (tracks : board.Tracks system) (depth : Nat) {count budget : Nat}
    {final : Board} (stepped : board.steps count = some final) (halted : final.word 0 = 0)
    (enough : count ≤ budget) :
    ∃ after, Machine.run .standard (depth + 1) budget system = some (.ok count, after) ∧
      final.Tracks after := by
  obtain ⟨after, makes, tracksAfter⟩ := tracks.makes depth stepped
  have zero := tracksAfter.pointer.trans halted
  exact ⟨after, makes.run_halts tracksAfter.plainPointer zero enough, tracksAfter⟩

theorem run_exhausts (tracks : board.Tracks system) (depth : Nat) {count : Nat} {final : Board}
    (stepped : board.steps count = some final) (running : final.word 0 ≠ 0) :
    ∃ after, Machine.run .standard (depth + 1) count system =
        some (.error (.budgetExhausted count), after) ∧ final.Tracks after := by
  obtain ⟨after, makes, tracksAfter⟩ := tracks.makes depth stepped
  have nonzero : Machine.pointer after ≠ 0 := by rwa [tracksAfter.pointer]
  exact ⟨after, makes.run_exhausts tracksAfter.plainPointer nonzero, tracksAfter⟩

end Tracks

end Board

end MoveMachine
