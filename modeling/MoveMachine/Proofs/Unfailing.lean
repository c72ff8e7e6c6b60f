import MoveMachine.Proofs.Export
import MoveMachine.Proofs.Visits

/-!
Machines that cannot fail in memory. A device of arithmetic or logic reads registers by their
names, and nothing that a machine with standard devices does can take a name away or put a
trigger on a register. So if every register has an address, and is computed by no such device
itself, then whatever the program does to its cells, triggers nest two deep at most, every access
to memory is answered, and a run can only halt, spend its budget or come upon a word that is no
address.
-/

set_option autoImplicit false

namespace MoveMachine

open MoveMachine.Action (Terms Agree Lockstep)

namespace Action

variable {σ ε α : Type}

/-- From a state of a kind, an action gives an answer and ends in a state of that kind. -/
def Answers (kind : σ → Prop) (action : Action σ ε α) : Prop :=
  Lockstep (Terms.settled kind) (fun _ => False) action action

variable {kind : σ → Prop} {action : Action σ ε α}

theorem Answers.exists_ok (answers : Answers kind action) {state : σ} (own : kind state) :
    ∃ answer after, action state = some (.ok answer, after) ∧ kind after := by
  have agree := answers state state ⟨⟨rfl, own⟩, rfl, own⟩
  obtain ⟨result, after, -, ran, -, ⟨-, -, kept⟩, errors⟩ := agree.exists_some id
  cases result with
  | ok answer => exact ⟨answer, after, ran, kept⟩
  | error error => exact (errors error rfl).elim

theorem Answers.of_exists_ok (runs : ∀ state, kind state →
    ∃ answer after, action state = some (.ok answer, after) ∧ kind after) :
    Answers kind action := by
  rintro state _ ⟨⟨rfl, own⟩, -⟩
  obtain ⟨answer, after, ran, kept⟩ := runs state own
  rw [ran]
  exact .ok ⟨⟨rfl, own⟩, rfl, kept⟩

end Action

open MoveMachine.Action (Answers)

/-- A script that reads nothing but registers, goes on when they answer, and changes no cell. -/
def Script.ReadsRegisters : Script → Prop
  | .done _ => True
  | .read (.name name) next => name ∈ Device.registers ∧ ∀ word, (next (.ok word)).ReadsRegisters
  | .host _ next => ∀ word, (next word).ReadsRegisters
  | .read (.address _) _ | .fail _ | .write _ _ _ | .poke _ _ _ | .bind _ _ _ | .onRead _ _ _
  | .onWrite _ _ _ _ => False

/-- Every register has an address, and reads as its word or as the input of the console. -/
def Memory.Ready (memory : Memory) : Prop :=
  ∀ name ∈ Device.registers, ∃ address, memory.symbols.resolve name = some address ∧
    ∀ trigger, memory.readTrigger address = some trigger →
      Wiring.standard.onRead trigger = Device.getchar

theorem Memory.Ready.sameWiring {before after : Memory} (ready : before.Ready)
    (same : before.SameWiring after) : after.Ready := by
  intro name register
  obtain ⟨address, bound, devices⟩ := ready name register
  refine ⟨address, by rw [same.symbols, bound], ?_⟩
  intro trigger found
  rw [same.readTrigger] at found
  exact devices trigger found

def World.Ready (world : World) : Prop := world.memory.Ready

namespace Device

theorem readsRegisters_of_mem {device : String × Script} (listed : device ∈ standardReads) :
    device.2.ReadsRegisters := by
  have a : "A" ∈ registers := by decide
  have b : "B" ∈ registers := by decide
  have c : "C" ∈ registers := by decide
  have operands : ∀ op : Word → Word → Word, (binary op).ReadsRegisters :=
    fun op => ⟨a, fun _ => ⟨b, fun _ => trivial⟩⟩
  have chosen : selection.ReadsRegisters := by
    refine ⟨c, fun word => ⟨?_, fun _ => trivial⟩⟩
    split
    · exact a
    · exact b
  have all : ∀ device ∈ standardReads, device.2.ReadsRegisters := by
    simp only [standardReads, arithmetic, List.cons_append, List.nil_append, List.forall_mem_cons]
    exact ⟨operands _, operands _, operands _, operands _, operands _, operands _, operands _,
      operands _, ⟨c, fun _ => trivial⟩, chosen, fun _ => trivial, List.forall_mem_nil _⟩
  exact all device listed

theorem readsRegisters_onRead (trigger : ReadTrigger) :
    (Wiring.standard.onRead trigger).ReadsRegisters :=
  Wiring.onRead_standard trivial (fun _ => readsRegisters_of_mem) trigger

theorem readsRegisters_onWrite (trigger : WriteTrigger) (value : Word) :
    (Wiring.standard.onWrite trigger value).ReadsRegisters :=
  Wiring.onWrite_standard trivial (fun _ _ => trivial) trigger value

end Device

namespace Access

variable {depth : Nat}

theorem changeMemory_answers {ε : Type} {change : Memory → Memory}
    (same : ∀ memory : Memory, memory.SameWiring (change memory)) :
    Answers World.Ready (changeMemory (ε := ε) change) :=
  .of_exists_ok fun world ready => ⟨(), _, rfl, ready.sameWiring (same world.memory)⟩

theorem register_answers {name : String} (register : name ∈ Device.registers) :
    Answers World.Ready (readVia (callRead .standard (depth + 1)) (.name name)) := by
  refine .of_exists_ok fun world ready => ?_
  obtain ⟨address, bound, devices⟩ := ready name register
  have resolved : world.memory.resolve (.name name) = .ok address := by
    simp [Memory.resolve, bound]
  -- A trigger on a register is the input of the console, which calls no other in turn.
  cases triggered : world.memory.readTrigger address with
  | none => exact ⟨_, world, readVia_plain resolved triggered, ready⟩
  | some trigger =>
    let taken : World := { world with host := world.host.getWord.2 }
    have answered : callRead .standard (depth + 1) trigger world =
        some (.ok world.host.getWord.1, taken) := by
      rw [callRead, devices trigger triggered]
      rfl
    rw [readVia_resolved resolved]
    exact ⟨_, _, readVia_computed triggered answered, ready.sameWiring (.observe ..)⟩

theorem followVia_answers {onRead : ReadTrigger → Access MemoryError Word}
    {onWrite : WriteTrigger → Word → Access MemoryError Unit}
    (registers : ∀ name ∈ Device.registers, Answers World.Ready (readVia onRead (.name name)))
    {script : Script} (own : script.ReadsRegisters) :
    Answers World.Ready (followVia onRead onWrite script) := by
  induction script with
  | done answer => exact Lockstep.pure answer
  | read key next ih =>
    cases key with
    | address place => exact own.elim
    | name name =>
      obtain ⟨register, goesOn⟩ := own
      refine .of_exists_ok fun world ready => ?_
      obtain ⟨word, seen, ran, kept⟩ := (registers name register).exists_ok ready
      have outcome : Action.outcome (ε := MemoryError) (readVia onRead (.name name)) world =
          some (.ok (.ok word), seen) := by
        rw [Action.outcome, ran]
        rfl
      obtain ⟨answer, after, followed, ready⟩ := (ih (.ok word) (goesOn word)).exists_ok kept
      exact ⟨answer, after, (Action.bind_of_ok outcome).trans followed, ready⟩
  | host act next ih =>
    have acted : Answers World.Ready (onHost (ε := MemoryError) act) :=
      .of_exists_ok fun world ready => ⟨_, _, rfl, ready⟩
    exact acted.bind fun word => ih word (own word)
  | fail _ | write _ _ _ _ | poke _ _ _ _ | bind _ _ _ _ | onRead _ _ _ _
  | onWrite _ _ _ _ _ => exact own.elim

theorem follow_answers {script : Script} (own : script.ReadsRegisters) :
    Answers World.Ready (follow .standard (depth + 2) script) :=
  followVia_answers (fun _ register => register_answers register) own

theorem read_answers (address : Address) :
    Answers World.Ready (read .standard (depth + 2) address) := by
  have resolved : Answers World.Ready (resolve address) :=
    .of_exists_ok fun world ready => ⟨address, world, rfl, ready⟩
  apply resolved.bind
  intro place
  apply Lockstep.get_bind
  rintro world _ ⟨⟨rfl, ready⟩, -⟩
  have start : (Terms.settled World.Ready).goes world world world world :=
    ⟨⟨rfl, ready⟩, rfl, ready⟩
  cases (Stage.world world).memory.readTrigger place with
  | none => exact Lockstep.pure _ world world start
  | some trigger =>
    have answered : Answers World.Ready (callRead .standard (depth + 2) trigger) :=
      follow_answers (Device.readsRegisters_onRead trigger)
    apply (answered world world start).bind
    intro value
    have noted : Answers World.Ready
        (changeMemory (ε := MemoryError) fun memory => memory.observe place value) :=
      changeMemory_answers fun memory => .observe memory place value
    exact noted.bind fun _ => Lockstep.pure value

theorem write_answers (address : Address) (value : Word) :
    Answers World.Ready (write .standard (depth + 2) address value) := by
  have resolved : Answers World.Ready (resolve address) :=
    .of_exists_ok fun world ready => ⟨address, world, rfl, ready⟩
  have called : ∀ trigger, Answers World.Ready (callWrite .standard (depth + 2) trigger value) :=
    fun trigger => (follow_answers (Device.readsRegisters_onWrite trigger value)).bind
      fun _ => Lockstep.pure ()
  apply resolved.bind
  intro place
  have recorded : Answers World.Ready (record (ε := MemoryError) place value) :=
    changeMemory_answers fun memory => .record memory place value
  apply recorded.bind
  intro _
  apply Lockstep.get_bind
  rintro world _ ⟨⟨rfl, ready⟩, -⟩
  exact Lockstep.forM called _ world world ⟨⟨rfl, ready⟩, rfl, ready⟩

end Access

namespace Machine

variable {depth : Nat}

/-- Ready registers let a machine with standard devices fail in no access to a cell. -/
theorem inStep_settled {errors : MachineError → Prop} :
    InStep (Terms.settled World.Ready) errors .standard (depth + 2) (depth + 2) where
  read address := (Access.read_answers address).mapError fun _ => False.elim
  write address value := (Access.write_answers address value).mapError fun _ => False.elim
  writtenSince := by rintro w _ v _ ⟨⟨rfl, -⟩, rfl, -⟩ address; rfl

theorem run_settles (depth : Nat) {system : System} (ready : system.world.Ready) (budget : Nat) :
    ∃ result final, run .standard (depth + 2) budget system = some (result, final) ∧
      ((∃ count, result = .ok count) ∨ (∃ count, result = .error (.budgetExhausted count)) ∨
        ∃ word, result = .error (.invalidAddress word)) := by
  let errors (error : MachineError) : Prop :=
    error.OfProgram ∨ ∃ count, error = .budgetExhausted count
  have lockstep : Lockstep (Bench.ofStages (Terms.settled World.Ready)) errors
      (run .standard (depth + 2) budget) (run .standard (depth + 2) budget) :=
    run_lockstep (Bench.simulation_ofStages _) inStep_settled (fun _ => .inl)
      (fun count => .inr ⟨count, rfl⟩) budget
  have agree := lockstep system system ⟨⟨⟨rfl, ready⟩, rfl, ready⟩, rfl, rfl, rfl⟩
  obtain ⟨result, final, -, ran, -, -, told⟩ := agree.exists_some id
  refine ⟨result, final, ran, ?_⟩
  cases result with
  | ok count => exact .inl ⟨count, rfl⟩
  | error error =>
    rcases told error rfl with own | ⟨count, rfl⟩
    · cases error with
      | halted => exact absurd ran run_ne_halted
      | invalidAddress word => exact .inr (.inr ⟨word, rfl⟩)
      | budgetExhausted _ | memory _ => exact own.elim
    · exact .inr (.inl ⟨count, rfl⟩)

end Machine

/-- Every register has an address that no device of arithmetic or logic computes. -/
def Memory.RegistersApart (memory : Memory) : Prop :=
  ∀ name ∈ Device.registers, ∃ address, memory.symbols.resolve name = some address ∧
    ∀ device ∈ Device.arithmetic, ∀ trigger, Registry.standard.read device.1 = .ok trigger →
      memory.readTrigger address ≠ some trigger

theorem Registry.onRead_of_not_arithmetic {label : String} {trigger : ReadTrigger}
    (found : standard.read label = .ok trigger)
    (aside : ∀ device ∈ Device.arithmetic, standard.read device.1 ≠ .ok trigger) :
    Wiring.standard.onRead trigger = Device.getchar := by
  have kinds : ∀ entry ∈ standard.reads.toList,
      entry.1 ∈ Device.arithmetic.map (·.1) ∨ entry.2.id = 10 := by decide
  have listed := Std.ExtTreeMap.mem_toList_iff_getElem?_eq_some.2 (read_eq_ok.1 found)
  rcases kinds (label, trigger) listed with named | input
  · obtain ⟨device, member, rfl⟩ := List.mem_map.1 named
    exact absurd found (aside device member)
  · rw [Wiring.onRead, input]
    rfl

theorem Memory.KnownTo.ready {memory : Memory} (known : memory.KnownTo .standard)
    (apart : memory.RegistersApart) : memory.Ready := by
  intro name register
  obtain ⟨address, bound, aside⟩ := apart name register
  refine ⟨address, bound, ?_⟩
  intro trigger found
  obtain ⟨label, -, named⟩ := known.readTrigger address trigger found
  apply Registry.onRead_of_not_arithmetic named
  intro device listed same
  exact aside device listed trigger same found

/--
A machine that is loaded with standard devices, and with registers that no device of arithmetic
or logic computes, does not fail in memory. Whatever its pointer is, whatever waits on the
console and whatever its budget, its run halts, spends the budget or comes upon a word that is
no address. All along, symbols and triggers are those of the load, what was printed stays
printed, and what waits on the console is the rest of what was waiting.
-/
theorem Config.SuppliedBy.unfailing {config : Config} {memory : Memory}
    (supplied : config.SuppliedBy .standard) (loaded : config.load {} = .ok memory)
    (apart : memory.RegistersApart) (ipAddress : Address) (host : Host) (depth budget : Nat) :
    let start : System := ⟨{ memory, ipAddress }, host⟩
    (∃ result final, Machine.run .standard (depth + 2) budget start = some (result, final) ∧
      Machine.Visits .standard (depth + 2) start final ∧
      ((∃ count, result = .ok count) ∨ (∃ count, result = .error (.budgetExhausted count)) ∨
        ∃ word, result = .error (.invalidAddress word))) ∧
    ∀ system, Machine.Visits .standard (depth + 2) start system →
      memory.SameWiring system.machine.memory ∧
      ∀ later, Machine.Visits .standard (depth + 2) system later →
        system.host.ConsoleUsed later.host := by
  intro start
  have ready : start.world.Ready := (knownTo_of_load supplied loaded).ready apart
  obtain ⟨result, final, ran, ends⟩ := Machine.run_settles depth ready budget
  refine ⟨⟨result, final, ran, Machine.visits_of_run ran, ends⟩, ?_⟩
  intro system visits
  exact ⟨visits.continued.wiring, fun later goesOn => goesOn.continued.console⟩

/-- A program that adds what it is given for `A` to `B`, and prints the sum twice by one write. -/
theorem Config.SuppliedBy.unfailing_input :
    let config := Config.ofList
      [(1, { symbols := ["A"], onRead := some ⟨some "getchar", 10⟩ }),
        (2, { symbols := ["B"], value := some (.literal (.number 5)) }),
        (3, { symbols := ["C"] }),
        (4, { value := some (.computed ⟨some "add", 0⟩) }),
        (7, { value := some (.literal (.number 16)) }),
        (12, { onWrite := some [⟨some "putchar", 0⟩, ⟨some "putchar", 0⟩] }),
        (16, { values := some (.items [.number 4, .number 12, .number 30, .number 7]) })]
    ∃ memory, config.SuppliedBy .standard ∧ config.load {} = .ok memory ∧
      memory.RegistersApart ∧ ∀ host budget,
      let start : System := ⟨{ memory, ipAddress := 7 }, host⟩
      (∃ result final, Machine.run .standard 2 budget start = some (result, final) ∧
        Machine.Visits .standard 2 start final ∧
        ((∃ count, result = .ok count) ∨ (∃ count, result = .error (.budgetExhausted count)) ∨
          ∃ word, result = .error (.invalidAddress word))) ∧
      ∀ system, Machine.Visits .standard 2 start system →
        memory.SameWiring system.machine.memory ∧
        ∀ later, Machine.Visits .standard 2 system later →
          system.host.ConsoleUsed later.host := by
  intro config
  have supplied : config.SuppliedBy .standard := by
    intro address cell found
    have listed := mem_of_get?_ofList (by unfold Sparse.Ascending; decide) found
    simp only [List.mem_cons, Prod.mk.injEq, List.not_mem_nil, or_false] at listed
    rcases listed with ⟨-, rfl⟩ | ⟨-, rfl⟩ | ⟨-, rfl⟩ | ⟨-, rfl⟩ | ⟨-, rfl⟩ | ⟨-, rfl⟩ | ⟨-, rfl⟩
    · refine ⟨nofun, ?_, nofun⟩
      rintro _ ⟨⟩
      exact ⟨"getchar", rfl⟩
    · exact ⟨nofun, nofun, nofun⟩
    · exact ⟨nofun, nofun, nofun⟩
    · refine ⟨?_, nofun, nofun⟩
      rintro _ ⟨⟩
      exact ⟨"add", rfl⟩
    · exact ⟨nofun, nofun, nofun⟩
    · refine ⟨nofun, nofun, ?_⟩
      rintro _ ⟨⟩ trigger listed
      have twice : ∀ trigger ∈ [(⟨some "putchar", 0⟩ : WriteTrigger), ⟨some "putchar", 0⟩],
        Registry.standard.write "putchar" = .ok trigger := by decide
      exact ⟨"putchar", twice trigger listed⟩
    · exact ⟨nofun, nofun, nofun⟩
  have computed : (config.load {}).toOption.map (fun memory =>
      (Device.registers.map memory.symbols.resolve, [1, 2, 3].map memory.readTrigger)) =
        some ([some 1, some 2, some 3], [some ⟨some "getchar", 10⟩, none, none]) := by
    decide +kernel
  obtain ⟨memory, found, views⟩ := Option.map_eq_some_iff.1 computed
  have loaded := eq_ok_of_toOption found
  simp only [Prod.mk.injEq, Device.registers, List.map_cons, List.map_nil, List.cons.injEq,
    and_true] at views
  obtain ⟨⟨a, b, c⟩, input, plainB, plainC⟩ := views
  have apart : memory.RegistersApart := by
    have aside : ∀ device ∈ Device.arithmetic,
        Registry.standard.read device.1 ≠ .ok ⟨some "getchar", 10⟩ := by decide
    simp only [Memory.RegistersApart, Device.registers, List.forall_mem_cons]
    refine ⟨⟨1, a, ?_⟩, ⟨2, b, ?_⟩, ⟨3, c, ?_⟩, nofun⟩
    · rintro device listed trigger named same
      rw [input] at same
      cases same
      exact aside device listed named
    · rw [plainB]
      exact fun _ _ _ _ => nofun
    · rw [plainC]
      exact fun _ _ _ _ => nofun
  exact ⟨memory, supplied, loaded, apart, fun host budget =>
    supplied.unfailing loaded apart 7 host 0 budget⟩

end MoveMachine
