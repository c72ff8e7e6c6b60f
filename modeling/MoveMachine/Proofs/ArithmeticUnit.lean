import MoveMachine.Proofs.FileMeaning
import MoveMachine.Proofs.FloorDivision
import MoveMachine.Proofs.Programs
import MoveMachine.Proofs.Visits

set_option autoImplicit false

namespace MoveMachine

/--
What the devices of the base layout answer, by address, from the words of the registers. Words
stand for integers, and the answers are reduced to words. A quotient by 0 is 0.
-/
def Device.answers : List (Address × (Word → Word → Word → Word)) :=
  [(4, fun a b _ => .ofInt (a.toInt + b.toInt)),
    (5, fun a b _ => .ofInt (a.toInt - b.toInt)),
    (6, fun a b _ => .ofInt (a.toInt * b.toInt)),
    (7, fun a b _ => .ofInt (a.toInt.fdiv b.toInt)),
    (8, fun a b _ => if a.toInt > b.toInt then 0 else -1),
    (9, fun a b _ => if a.toInt < b.toInt then 0 else -1),
    (10, fun a b _ => if a.toInt = b.toInt then 0 else -1),
    (13, fun _ _ c => if c = 0 then -1 else 0),
    (14, fun a b _ => a ^^^ b),
    (15, fun a b c => if c = 0 then a else b)]

theorem Device.exists_operation {address : Address} {answer : Word → Word → Word → Word}
    (listed : (address, answer) ∈ answers) :
    ∃ trigger op, Board.devices.lookup address = some trigger ∧
      operations[trigger.id]? = some op ∧ op = answer := by
  simp only [answers, List.mem_cons, Prod.mk.injEq, List.not_mem_nil, or_false] at listed
  rcases listed with ⟨rfl, rfl⟩ | ⟨rfl, rfl⟩ | ⟨rfl, rfl⟩ | ⟨rfl, rfl⟩ | ⟨rfl, rfl⟩ | ⟨rfl, rfl⟩ |
    ⟨rfl, rfl⟩ | ⟨rfl, rfl⟩ | ⟨rfl, rfl⟩ | ⟨rfl, rfl⟩
  all_goals refine ⟨_, _, rfl, rfl, ?_⟩
  all_goals funext a b c
  · rw [Int64.ofInt_add, Int64.ofInt_toInt, Int64.ofInt_toInt]
  · rw [Int64.ofInt_sub, Int64.ofInt_toInt, Int64.ofInt_toInt]
  · rw [Int64.ofInt_mul, Int64.ofInt_toInt, Int64.ofInt_toInt]
  · exact Word.floorDiv_eq_ofInt a b
  · simp [Word.ofBool, Int64.lt_iff_toInt_lt]
  · simp [Word.ofBool, Int64.lt_iff_toInt_lt]
  · simp [Word.ofBool, Int64.toInt_inj]
  · by_cases zero : c = 0 <;> simp [Word.ofBool, zero]
  · rfl
  · rfl

theorem Device.place_of_mem_answers {entry : Address × (Word → Word → Word → Word)}
    (listed : entry ∈ answers) :
    1 ≤ entry.1 ∧ entry.1 ≤ 15 ∧ entry.1 ∉ [1, 2, 3] ∧ entry.1 ≠ 12 := by
  have places : (answers.all fun entry =>
      1 ≤ entry.1 ∧ entry.1 ≤ 15 ∧ entry.1 ∉ [1, 2, 3] ∧ entry.1 ≠ 12) = true := by decide
  exact of_decide_eq_true (List.all_eq_true.1 places entry listed)

theorem Memory.Registers.sameWiring {before after : Memory} (registers : before.Registers)
    (same : before.SameWiring after) : after.Registers where
  a := by rw [same.symbols, registers.a]
  b := by rw [same.symbols, registers.b]
  c := by rw [same.symbols, registers.c]
  plainA := (same.readTrigger 1).trans registers.plainA
  plainB := (same.readTrigger 2).trans registers.plainB
  plainC := (same.readTrigger 3).trans registers.plainC

/-- The registers are in place, and the devices of the base layout, on which no write acts. -/
structure Memory.HasUnit (memory : Memory) : Prop where
  registers : memory.Registers
  device : ∀ entry ∈ Device.answers,
    memory.readTrigger entry.1 = Board.devices.lookup entry.1
  quiet : ∀ entry ∈ Device.answers, memory.writeTriggers entry.1 = []

theorem Memory.HasUnit.sameWiring {before after : Memory} (unit : before.HasUnit)
    (same : before.SameWiring after) : after.HasUnit where
  registers := unit.registers.sameWiring same
  device entry listed := (same.readTrigger entry.1).trans (unit.device entry listed)
  quiet entry listed := (same.writeTriggers entry.1).trans (unit.quiet entry listed)

/--
A cell reads as an answer, which is noted as observed there, while nothing else is changed. It
reads the same again, and the same after anything was written to it.
-/
structure World.Gives (world : World) (address : Address) (answer : Word) : Prop where
  read : ∀ depth, Access.read .standard (depth + 1) address world =
    some (.ok answer, { world with memory := world.memory.observe address answer })
  again : ∀ depth, ∃ after, Access.read .standard (depth + 1) address
    { world with memory := world.memory.observe address answer } = some (.ok answer, after)
  written : ∀ depth value, ∃ written after,
    Access.write .standard (depth + 1) address value world = some (.ok (), written) ∧
      written.memory.stored address = some value ∧
      Access.read .standard (depth + 1) address written = some (.ok answer, after)

namespace Memory.HasUnit

variable {world : World} {address : Address} {answer : Word → Word → Word → Word}

theorem read (unit : world.memory.HasUnit) (listed : (address, answer) ∈ Device.answers)
    (depth : Nat) :
    let word := answer (world.memory.peek 1) (world.memory.peek 2) (world.memory.peek 3)
    Access.read .standard (depth + 1) address world =
      some (.ok word, { world with memory := world.memory.observe address word }) := by
  obtain ⟨trigger, op, device, operation, rfl⟩ := Device.exists_operation listed
  have triggered := (unit.device _ listed).trans device
  exact Access.readVia_computed triggered
    (Device.computes_standard operation trigger.label .standard depth world unit.registers)

private theorem read_later (unit : world.memory.HasUnit)
    (listed : (address, answer) ∈ Device.answers) {later : World}
    (wiring : world.memory.SameWiring later.memory)
    (words : ∀ register ∈ [1, 2, 3], later.memory.stored register = world.memory.stored register)
    (depth : Nat) :
    ∃ after, Access.read .standard (depth + 1) address later = some
      (.ok (answer (world.memory.peek 1) (world.memory.peek 2) (world.memory.peek 3)), after) := by
  have peeks : ∀ register ∈ [1, 2, 3], later.memory.peek register = world.memory.peek register :=
    fun register member => by rw [Memory.peek, words register member, Memory.peek]
  have answered := read (unit.sameWiring wiring) listed depth
  rw [peeks 1 (by decide), peeks 2 (by decide), peeks 3 (by decide)] at answered
  exact ⟨_, answered⟩

theorem gives (unit : world.memory.HasUnit) (listed : (address, answer) ∈ Device.answers) :
    world.Gives address
      (answer (world.memory.peek 1) (world.memory.peek 2) (world.memory.peek 3)) := by
  constructor
  case read => exact unit.read listed
  case again =>
    intro depth
    exact unit.read_later listed (.observe ..)
      (fun register _ => world.memory.stored_observe address register _) depth
  case written =>
    intro depth value
    let recorded : World := { world with memory := world.memory.record address value }
    have written : Access.write .standard (depth + 1) address value world =
        some (.ok (), recorded) := Access.writeVia_plain (unit.quiet _ listed) value
    obtain ⟨-, -, aside, -⟩ := Device.place_of_mem_answers listed
    have words : ∀ register ∈ [1, 2, 3],
        recorded.memory.stored register = world.memory.stored register := by
      intro register member
      have apart : address ≠ register := by
        rintro rfl
        exact aside member
      rw [Memory.stored_record, if_neg apart]
    have wiring : world.memory.SameWiring recorded.memory := .record ..
    obtain ⟨after, answered⟩ := unit.read_later listed wiring words depth
    refine ⟨recorded, after, written, ?_, answered⟩
    rw [Memory.stored_record, if_pos rfl]

end Memory.HasUnit

namespace Program

private theorem hasUnit_of_baseWired {memory : Memory} (wired : memory.BaseWired) :
    memory.HasUnit where
  registers := wired.registers
  device entry _ := wired.readTrigger entry.1
  quiet entry listed := by
    obtain ⟨-, -, -, apart⟩ := Device.place_of_mem_answers listed
    rw [wired.writeTriggers, if_neg apart]

private theorem loads_layout {layout : Config} (laid : Program.layout .standard = .ok layout) :
    ∃ base, layout.load {} = .ok base ∧ base.BaseWired := by
  obtain ⟨config, machine, configured, built, tracks⟩ := loads .base
  rw [config_base, laid, Except.ok.injEq] at configured
  subst configured
  cases alone : layout.load {} with
  | error error =>
    rw [Machine.ofConfig, alone] at built
    cases built
  | ok base =>
    rw [Machine.ofConfig, alone] at built
    cases built
    exact ⟨base, rfl, (tracks {}).world.wired⟩

private theorem hasUnit_of_load {layout program : Config} {memory : Memory}
    (laid : Program.layout .standard = .ok layout)
    (loaded : (layout.merge program).load {} = .ok memory)
    (spares : ∀ address, 1 ≤ address → address ≤ 15 → program.get? address = none)
    (undeclared : ∀ name ∈ Device.registers, ∀ address, ¬ program.Declares name address) :
    memory.HasUnit := by
  obtain ⟨base, alone, wired⟩ := loads_layout laid
  have triggers : ∀ address, 1 ≤ address → address ≤ 15 →
      memory.readTrigger address = base.readTrigger address ∧
        memory.writeTriggers address = base.writeTriggers address :=
    fun address low high => Config.triggers_of_load_merge alone loaded (spares address low high)
  have names : ∀ name ∈ Device.registers, ∀ address, 1 ≤ address → address ≤ 15 →
      base.symbols.resolve name = some address → memory.symbols.resolve name = some address :=
    fun name register address low high bound => Config.resolve_of_load_merge alone loaded
      (SymbolTable.resolve_empty name) bound (undeclared name register) (spares address low high)
  have own := hasUnit_of_baseWired wired
  constructor
  case registers =>
    exact
      { a := names "A" (by decide) 1 (by decide) (by decide) wired.a
        b := names "B" (by decide) 2 (by decide) (by decide) wired.b
        c := names "C" (by decide) 3 (by decide) (by decide) wired.c
        plainA := (triggers 1 (by decide) (by decide)).1.trans own.registers.plainA
        plainB := (triggers 2 (by decide) (by decide)).1.trans own.registers.plainB
        plainC := (triggers 3 (by decide) (by decide)).1.trans own.registers.plainC }
  case device =>
    intro entry listed
    obtain ⟨low, high, -⟩ := Device.place_of_mem_answers listed
    exact (triggers entry.1 low high).1.trans (own.device entry listed)
  case quiet =>
    intro entry listed
    obtain ⟨low, high, -⟩ := Device.place_of_mem_answers listed
    exact (triggers entry.1 low high).2.trans (own.quiet entry listed)

/--
The arithmetic unit is right wherever a program comes to. A program over the base layout that
describes no cell from 1 to 15, and declares no register, may write to any cell: after whatever
moves it has made, the cells of the unit read as the operations on the words of the cells 1, 2
and 3, and nothing but the note of what was observed there is changed by a read.
-/
theorem unit_gives {layout program : Config} {memory : Memory}
    (laid : Program.layout .standard = .ok layout)
    (loaded : (layout.merge program).load {} = .ok memory)
    (spares : ∀ address, 1 ≤ address → address ≤ 15 → program.get? address = none)
    (undeclared : ∀ name ∈ Device.registers, ∀ address, ¬ program.Declares name address)
    {ipAddress : Address} {host : Host} {depth count : Nat} {system : System}
    (makes : Machine.Makes .standard depth count ⟨{ memory, ipAddress }, host⟩ system) :
    ∀ entry ∈ Device.answers, system.world.Gives entry.1
      (entry.2 (system.machine.memory.peek 1) (system.machine.memory.peek 2)
        (system.machine.memory.peek 3)) := by
  intro entry listed
  have started := hasUnit_of_load laid loaded spares undeclared
  have reached : system.world.memory.HasUnit := started.sameWiring makes.visits.continued.wiring
  exact reached.gives listed

/-- A program multiplies 6 by 7 and writes the product to the cell 4, which still adds. -/
theorem unit_gives_overwritten :
    let program := Config.ofList
      [(18, { value := some (.literal (.number 24)) }),
        (20, { values := some (.items [.number 6, .number 7]) }),
        (24, { values := some (.items
          [.number 20, .number 1, .number 21, .number 2, .number 6, .number 4]) })]
    ∃ layout memory system, Program.layout .standard = .ok layout ∧
      (layout.merge program).load {} = .ok memory ∧
      (∀ address, 1 ≤ address → address ≤ 15 → program.get? address = none) ∧
      (∀ name ∈ Device.registers, ∀ address, ¬ program.Declares name address) ∧
      Machine.Makes .standard 1 4 ⟨{ memory }, {}⟩ system ∧
      system.machine.memory.stored 4 = some 42 ∧ system.world.Gives 4 13 ∧
      ∀ entry ∈ Device.answers, system.world.Gives entry.1 (entry.2 6 7 0) := by
  intro program
  have listed : ∀ address cell, program.get? address = some cell →
      15 < address ∧ cell.symbols = [] := by
    intro address cell found
    have member := Config.mem_of_get?_ofList (by unfold Sparse.Ascending; decide) found
    simp only [List.mem_cons, Prod.mk.injEq, List.not_mem_nil, or_false] at member
    rcases member with ⟨rfl, rfl⟩ | ⟨rfl, rfl⟩ | ⟨rfl, rfl⟩ <;> exact ⟨by decide, rfl⟩
  have spares : ∀ address, 1 ≤ address → address ≤ 15 → program.get? address = none := by
    intro address _ high
    rw [Option.eq_none_iff_forall_ne_some]
    intro cell found
    exact UInt64.not_le.2 (listed address cell found).1 high
  have undeclared : ∀ name ∈ Device.registers, ∀ address, ¬ program.Declares name address := by
    rintro name - address ⟨cell, found, member⟩
    rw [(listed address cell found).2] at member
    cases member
  have computed : (do
      let layout ← (Program.layout .standard).toOption
      let memory ← ((layout.merge program).load {}).toOption
      let system ← Machine.moved? .standard 1 4 ⟨{ memory }, {}⟩
      return [1, 2, 3, 4].map system.machine.memory.stored) =
        some [some 6, some 7, none, some 42] := by
    rw [layout_eq]
    decide +kernel
  simp only [Option.bind_eq_bind, Option.bind_eq_some_iff] at computed
  obtain ⟨layout, laid, memory, loaded, system, moved, words⟩ := computed
  have laid := eq_ok_of_toOption laid
  have loaded := eq_ok_of_toOption loaded
  have makes := Machine.makes_of_moved? moved
  have gives := unit_gives laid loaded spares undeclared makes
  simp only [List.map_cons, List.map_nil, Option.pure_def, Option.some.injEq, List.cons.injEq,
    and_true] at words
  obtain ⟨a, b, c, product⟩ := words
  simp only [Memory.peek, a, b, c, Option.getD_some, Option.getD_none] at gives
  refine ⟨layout, memory, system, laid, loaded, spares, undeclared, makes, product, ?_, gives⟩
  exact gives (4, _) List.mem_cons_self

end Program

end MoveMachine
