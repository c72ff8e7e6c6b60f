import MoveMachine.Proofs.FileMeaning
import MoveMachine.Proofs.FileText
import MoveMachine.Proofs.Passive

/-!
Memories as text. The text of a memory is that of the file of the configuration that describes
it. A machine that was loaded with the standard devices and then used in any way has standard
devices only, since these wire nothing. So its text is made without fail, read without fail,
and restores what it was made from; and as it tells no more of a memory than it restores, the
text of the restored memory is the same text.
-/

set_option autoImplicit false

namespace MoveMachine

def Memory.exportText (memory : Memory) (callbacks : Bool) : Except ConfigError String :=
  (ConfigFile.ofConfig (.ofMemory memory callbacks) callbacks).map ConfigFile.render

def Memory.ofText (registry : Registry) (text : String) : Except ConfigError Memory := do
  let file ← ConfigFile.parse text
  let config ← file.toConfig registry
  config.load {}

/-- A memory whose triggers a registry knows by their labels. -/
structure Memory.KnownTo (registry : Registry) (memory : Memory) : Prop where
  readTrigger : ∀ address trigger, memory.readTrigger address = some trigger →
    registry.NamesRead trigger
  writeTriggers : ∀ address, ∀ trigger ∈ memory.writeTriggers address, registry.NamesWrite trigger

structure CellConfig.SuppliedBy (registry : Registry) (cell : CellConfig) : Prop where
  computed : ∀ trigger, cell.value = some (.computed trigger) →
    ∃ label, registry.read label = .ok trigger
  onRead : ∀ trigger, cell.onRead = some trigger → ∃ label, registry.read label = .ok trigger
  onWrite : ∀ triggers, cell.onWrite = some triggers →
    ∀ trigger ∈ triggers, ∃ label, registry.write label = .ok trigger

/-- A configuration whose triggers all come from a registry. -/
def Config.SuppliedBy (registry : Registry) (config : Config) : Prop :=
  ∀ address cell, config.get? address = some cell → cell.SuppliedBy registry

namespace Registry

theorem read_eq_ok {registry : Registry} {label : String} {trigger : ReadTrigger} :
    registry.read label = .ok trigger ↔ registry.reads[label]? = some trigger := by
  unfold read
  cases registry.reads[label]? <;> simp

theorem write_eq_ok {registry : Registry} {label : String} {trigger : WriteTrigger} :
    registry.write label = .ok trigger ↔ registry.writes[label]? = some trigger := by
  unfold write
  cases registry.writes[label]? <;> simp

theorem namesRead_standard {label : String} {trigger : ReadTrigger}
    (found : standard.read label = .ok trigger) : standard.NamesRead trigger := by
  have labels : ∀ entry ∈ standard.reads.toList, entry.2.label = some entry.1 := by decide
  have listed := Std.ExtTreeMap.mem_toList_iff_getElem?_eq_some.2 (read_eq_ok.1 found)
  exact ⟨label, labels (label, trigger) listed, found⟩

theorem namesWrite_standard {label : String} {trigger : WriteTrigger}
    (found : standard.write label = .ok trigger) : standard.NamesWrite trigger := by
  have labels : ∀ entry ∈ standard.writes.toList, entry.2.label = some entry.1 := by decide
  have listed := Std.ExtTreeMap.mem_toList_iff_getElem?_eq_some.2 (write_eq_ok.1 found)
  exact ⟨label, labels (label, trigger) listed, found⟩

end Registry

/--
The memories that a configuration leads to: it is loaded into an empty memory, and machines are
read, written, set, stepped and run over what comes of it, with the standard devices, whatever
cell their instruction pointer is, whatever their host holds and whether they succeed or fail.
-/
inductive Config.LeadsTo (config : Config) : Memory → Prop
  | load {memory : Memory} : config.load {} = .ok memory → config.LeadsTo memory
  | perform {machine : Machine} {after : System} {result : Except RequestError Reply}
      (depth : Nat) (request : Request) (host : Host) : config.LeadsTo machine.memory →
      request.isPassive = true →
      request.perform .standard depth ⟨machine, host⟩ = some (result, after) →
      config.LeadsTo after.machine.memory

theorem Config.LeadsTo.sameWiring {config : Config} {memory : Memory}
    (leads : config.LeadsTo memory) :
    ∃ loaded, config.load {} = .ok loaded ∧ loaded.SameWiring memory := by
  induction leads with
  | @load memory loaded => exact ⟨memory, loaded, .refl memory⟩
  | @perform machine after result depth request host _ passive performed ih =>
    obtain ⟨loaded, load, same⟩ := ih
    have framed := (Memory.SameWiring.frame Host.UsesConsole).perform_keeps Wiring.standard_passive
      depth (Request.respects_of_isPassive passive) ⟨machine, host⟩ result after performed
    exact ⟨loaded, load, same.trans framed.world⟩

theorem Memory.KnownTo.sameWiring {registry : Registry} {before after : Memory}
    (known : before.KnownTo registry) (same : before.SameWiring after) :
    after.KnownTo registry := by
  constructor
  · intro address trigger found
    rw [same.readTrigger] at found
    exact known.readTrigger address trigger found
  · intro address trigger listed
    rw [same.writeTriggers] at listed
    exact known.writeTriggers address trigger listed

theorem Config.knownTo_of_load {config : Config} {memory : Memory}
    (supplied : config.SuppliedBy .standard) (loaded : config.load {} = .ok memory) :
    memory.KnownTo .standard := by
  constructor
  · intro address trigger found
    rw [(triggers_of_load loaded address).1, Memory.readTrigger, Memory.cell_empty,
      Option.or_none, Option.bind_eq_some_iff] at found
    obtain ⟨cell, described, own⟩ := found
    have supply := supplied address cell described
    rcases CellConfig.of_readTrigger?_eq_some own with computed | onRead
    · obtain ⟨label, known⟩ := supply.computed trigger computed
      exact Registry.namesRead_standard known
    · obtain ⟨label, known⟩ := supply.onRead trigger onRead
      exact Registry.namesRead_standard known
  · intro address trigger listed
    rw [(triggers_of_load loaded address).2, Memory.writeTriggers, Memory.cell_empty] at listed
    cases own : (config.get? address).bind CellConfig.onWrite with
    | none =>
      rw [own] at listed
      cases listed
    | some triggers =>
      rw [own] at listed
      obtain ⟨cell, described, triggered⟩ := Option.bind_eq_some_iff.1 own
      have supply := supplied address cell described
      obtain ⟨label, known⟩ := supply.onWrite triggers triggered trigger listed
      exact Registry.namesWrite_standard known

namespace Config

theorem expressible_ofMemory {registry : Registry} {memory : Memory} {callbacks : Bool}
    (known : callbacks = true → memory.KnownTo registry) :
    (ofMemory memory callbacks).Expressible registry := by
  intro address cell found
  rw [get?_ofMemory] at found
  split at found
  · cases found
  · cases found
    have value := value_cellOfMemory memory callbacks address
    have onRead := onRead_cellOfMemory memory callbacks address
    have onWrite := onWrite_cellOfMemory memory callbacks address
    have uncomputed : ∀ trigger,
        (cellOfMemory memory callbacks address).value ≠ some (.computed trigger) := by
      intro trigger computed
      rw [value, Option.map_eq_some_iff] at computed
      obtain ⟨word, -, same⟩ := computed
      cases same
    constructor
    case computed => exact fun trigger computed => absurd computed (uncomputed trigger)
    case single => exact fun trigger computed => absurd computed (uncomputed trigger)
    case onRead =>
      intro trigger own
      rw [onRead] at own
      cases callbacks with
      | false => cases own
      | true => exact (known rfl).readTrigger address trigger own
    case onWrite =>
      intro triggers own trigger listed
      rw [own, Option.getD_some] at onWrite
      rw [onWrite] at listed
      cases callbacks with
      | false => cases listed
      | true => exact (known rfl).writeTriggers address trigger listed
    case value =>
      intro literal own
      rw [value, Option.map_eq_some_iff] at own
      obtain ⟨word, -, same⟩ := own
      cases same
      exact nofun
    case items =>
      intro literal item
      rw [CellConfig.items, values_cellOfMemory] at item
      cases item

theorem ofConfig_ofMemory {registry : Registry} {memory : Memory} {callbacks : Bool}
    (known : callbacks = true → memory.KnownTo registry) :
    ConfigFile.ofConfig (ofMemory memory callbacks) callbacks =
      .ok (ofMemory memory callbacks).express := by
  apply ofConfig_eq_express
  intro address cell found
  cases callbacks with
  | true => exact (expressible_ofMemory known address cell found).ofCell_eq
  | false =>
    rw [get?_ofMemory] at found
    split at found
    · cases found
    · cases found
      have untriggered : (cellOfMemory memory false address).readTrigger? = none := by
        rw [CellConfig.readTrigger?, CellConfig.computed?, value_cellOfMemory]
        cases memory.stored address <;> rfl
      rw [Entry.express, untriggered]
      rfl

/-- A restored memory is described as the memory that it was restored from. -/
theorem ofMemory_restored {memory restored : Memory} {callbacks : Bool}
    (symbols : restored.symbols = memory.symbols)
    (cells : ∀ address, restored.cell address = (memory.cell address).snapshot callbacks) :
    ofMemory restored callbacks = ofMemory memory callbacks := by
  have descriptions : ∀ address,
      cellOfMemory restored callbacks address = cellOfMemory memory callbacks address := by
    intro address
    cases callbacks <;>
      simp [cellOfMemory, Memory.stored, Memory.readTrigger, Memory.writeTriggers, symbols, cells,
        Cell.snapshot]
  have same : (ofMemory restored callbacks).cells = (ofMemory memory callbacks).cells := by
    apply Std.ExtTreeMap.ext_getElem?
    intro address
    have left := get?_ofMemory restored callbacks address
    have right := get?_ofMemory memory callbacks address
    rw [descriptions] at left
    exact left.trans right.symm
  exact congrArg Config.mk same

end Config

/-- A memory that was restored from another, with or without its triggers. -/
structure Memory.RestoredFrom (restored : Memory) (callbacks : Bool) (memory : Memory) : Prop where
  stored : ∀ address, restored.stored address = memory.stored address
  aliases : ∀ address, restored.symbols.aliasesOf address = memory.symbols.aliasesOf address
  resolve : ∀ key, restored.resolve key = memory.resolve key
  readTrigger : ∀ address,
    restored.readTrigger address = if callbacks then memory.readTrigger address else none
  writeTriggers : ∀ address,
    restored.writeTriggers address = if callbacks then memory.writeTriggers address else []

/--
However a machine with standard devices was used, the text of its memory, with or without
triggers, is made without fail and read without fail. It restores what is stored, the names of
every address in their order, where every name belongs and, if they are told, the devices on
every cell in their order. The text of the restored memory is the same, character by character.
-/
theorem Config.LeadsTo.exported {config : Config} {memory : Memory}
    (supplied : config.SuppliedBy .standard) (leads : config.LeadsTo memory)
    (callbacks : Bool) :
    ∃ text restored, memory.exportText callbacks = .ok text ∧
      Memory.ofText .standard text = .ok restored ∧ restored.RestoredFrom callbacks memory ∧
      restored.exportText callbacks = .ok text := by
  -- Nothing is wired after the load, so every trigger is a standard device with a label.
  obtain ⟨start, load, same⟩ := leads.sameWiring
  have known : memory.KnownTo .standard := (knownTo_of_load supplied load).sameWiring same
  let config := ofMemory memory callbacks
  have expressible : config.Expressible .standard := expressible_ofMemory fun _ => known
  have written : ConfigFile.ofConfig config callbacks = .ok config.express :=
    ofConfig_ofMemory fun _ => known
  have parsed : ConfigFile.parse config.express.render = .ok config.express := by
    rw [ConfigFile.parse, ConfigFile.parse?_render, Option.bind_some, ConfigFile.ofJson?_toJson]
  have reloads : config.plain.load {} = config.load {} :=
    load_plain {} fun address cell found => (expressible address cell found).single
  obtain ⟨restored, loaded, symbols, -, cells⟩ := load_ofMemory memory callbacks
  refine ⟨config.express.render, restored, ?_, ?_, ?_, ?_⟩
  · show (ConfigFile.ofConfig config callbacks).map ConfigFile.render = _
    rw [written]
    rfl
  · rw [Memory.ofText, parsed]
    show (config.express.toConfig .standard >>= fun config => config.load {}) = _
    rw [expressible.toConfig_express]
    show config.plain.load {} = _
    rw [reloads, loaded]
  · constructor
    case stored =>
      intro address
      rw [Memory.stored, cells]
      rfl
    case aliases => exact fun address => congrArg (·.aliasesOf address) symbols
    case resolve =>
      intro key
      cases key with
      | address address => rfl
      | name name => simp only [Memory.resolve, symbols]
    case readTrigger => exact fun address => congrArg Cell.onRead (cells address)
    case writeTriggers => exact fun address => congrArg Cell.onWrite (cells address)
  · rw [Memory.exportText, ofMemory_restored symbols cells]
    show (ConfigFile.ofConfig config callbacks).map ConfigFile.render = _
    rw [written]
    rfl

/-- A step of an echo program moves a character from the console through two named cells. -/
theorem Config.LeadsTo.exported_echo :
    let config := Config.ofList
      [(0, { value := some (.literal (.number 20)) }),
        (20, { values := some (.items [.symbolRef "in", .symbolRef "out"]) }),
        (30, { symbols := ["in", "source"], onRead := some ⟨some "getchar", 10⟩ }),
        (31, { symbols := ["out"], onWrite := some [⟨some "putchar", 0⟩] })]
    ∃ memory, config.SuppliedBy .standard ∧ config.LeadsTo memory ∧
      memory.stored 31 = some 65 ∧ ∀ callbacks,
      ∃ text restored, memory.exportText callbacks = .ok text ∧
        Memory.ofText .standard text = .ok restored ∧ restored.RestoredFrom callbacks memory ∧
        restored.exportText callbacks = .ok text := by
  intro config
  have supplied : config.SuppliedBy .standard := by
    intro address cell found
    have listed := mem_of_get?_ofList (by unfold Sparse.Ascending; decide) found
    simp only [List.mem_cons, Prod.mk.injEq, List.not_mem_nil, or_false] at listed
    rcases listed with ⟨-, rfl⟩ | ⟨-, rfl⟩ | ⟨-, rfl⟩ | ⟨-, rfl⟩
    · constructor <;> exact nofun
    · constructor <;> exact nofun
    · constructor
      case onRead =>
        intro trigger own
        cases own
        exact ⟨"getchar", rfl⟩
      all_goals exact nofun
    · constructor
      case onWrite =>
        intro triggers own trigger member
        cases own
        obtain rfl := List.mem_singleton.1 member
        exact ⟨"putchar", rfl⟩
      all_goals exact nofun
  have computed : ((config.load {}).toOption.bind fun memory =>
      (Request.step.perform .standard 2 ⟨{ memory }, { console := { input := [65] } }⟩).map
        fun outcome => outcome.2.machine.memory.stored 31) = some (some 65) := by
    decide +kernel
  cases loaded : config.load {} with
  | error error =>
    rw [loaded] at computed
    cases computed
  | ok memory =>
    rw [loaded] at computed
    obtain ⟨⟨result, after⟩, performed, stored⟩ := Option.map_eq_some_iff.1 computed
    have leads : config.LeadsTo after.machine.memory :=
      .perform 2 .step _ (.load loaded) rfl performed
    exact ⟨after.machine.memory, supplied, leads, stored, leads.exported supplied⟩

end MoveMachine
