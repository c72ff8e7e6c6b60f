import MoveMachine.Proofs.LiteralForms
import MoveMachine.Proofs.Loading

/-!
What a configuration means as a file. Written and read under a registry that knows its
triggers, a description comes back in plain form: digits are numbers, a generated block is the
items that it has at its address, and a computed value is a read trigger. On every memory a
plain description acts as the description itself does, and is refused as it is.
-/

set_option autoImplicit false

namespace MoveMachine

/-- The description as it comes back from a file. -/
def CellConfig.plain (base : Address) (cell : CellConfig) : CellConfig where
  symbols := cell.symbols
  value := cell.literal?.map fun literal => .literal literal.plain
  values := cell.values.map fun run => .items ((run.valuesAt base).map Literal.plain)
  onRead := cell.readTrigger?
  onWrite := cell.onWrite

theorem CellConfig.items_plain (base : Address) (cell : CellConfig) :
    (cell.plain base).items base = (cell.items base).map Literal.plain := by
  unfold items plain
  cases cell.values <;> rfl

namespace Memory

theorem update_update (memory : Memory) (address : Address) (first second : Cell → Cell) :
    (memory.update address first).update address second =
      memory.update address fun cell => second (first cell) := by
  unfold update
  congr 1
  apply Std.ExtTreeMap.ext_getElem?
  intro place
  simp only [Std.ExtTreeMap.getElem?_alter]
  by_cases same : address = place
  · subst same
    simp
  · simp [same]

theorem addWriteTriggers_setReadTrigger (memory : Memory) (address : Address)
    (trigger : ReadTrigger) (triggers : List WriteTrigger) (overwrite : Bool) :
    (memory.setReadTrigger address trigger).addWriteTriggers address triggers overwrite =
      (memory.addWriteTriggers address triggers overwrite).setReadTrigger address trigger := by
  unfold setReadTrigger addWriteTriggers
  rw [update_update, update_update]

end Memory

namespace Config

theorem placeValues_plain (base : Address) (placed : Nat) (values : List Literal)
    (memory : Memory) :
    placeValues base placed (values.map Literal.plain) memory =
      placeValues base placed values memory := by
  induction values generalizing placed memory with
  | nil => rfl
  | cons value values ih =>
    rw [List.map_cons]
    unfold placeValues
    cases Address.ofNat? (base.toNat + placed) with
    | none => rfl
    | some target =>
      rw [Literal.resolve_plain]
      cases value.resolve memory.symbols with
      | error error => rfl
      | ok word => exact ih (placed + 1) (memory.poke target word)

private theorem placeValue_plain {base : Address} {cell : CellConfig} (memory : Memory)
    (single : ∀ trigger, cell.value = some (.computed trigger) → cell.onRead = none) :
    placeValue base (cell.plain base).value (installTriggers base (cell.plain base) memory) =
      placeValue base cell.value (installTriggers base cell memory) := by
  unfold CellConfig.plain CellConfig.literal? CellConfig.readTrigger? CellConfig.computed?
    installTriggers
  match value : cell.value with
  | none => rfl
  | some (.literal literal) =>
    simp only [Option.map_some, Option.none_or, placeValue, Literal.resolve_plain]
  | some (.computed trigger) =>
    rw [single trigger value]
    cases cell.onWrite with
    | none => rfl
    | some triggers =>
      exact congrArg Except.ok (Memory.addWriteTriggers_setReadTrigger ..)

theorem applyCell_plain (base : Address) {cell : CellConfig} (memory : Memory)
    (single : ∀ trigger, cell.value = some (.computed trigger) → cell.onRead = none) :
    applyCell base (cell.plain base) memory = applyCell base cell memory := by
  rw [applyCell_eq_bind, applyCell_eq_bind, placeValue_plain memory single,
    CellConfig.items_plain]
  congr 1
  funext middle
  exact placeValues_plain base 0 (cell.items base) middle

def plain (config : Config) : Config :=
  .ofList (config.toList.map fun entry => (entry.1, entry.2.plain entry.1))

theorem toList_plain (config : Config) :
    config.plain.toList = config.toList.map fun entry => (entry.1, entry.2.plain entry.1) :=
  Sparse.toList_ofList ((Sparse.ascending_toList config.cells).map fun place cell =>
    cell.plain place)

/-- A plain configuration loads into every memory as the configuration does. -/
theorem load_plain {config : Config} (memory : Memory)
    (single : ∀ address cell, config.get? address = some cell →
      ∀ trigger, cell.value = some (.computed trigger) → cell.onRead = none) :
    config.plain.load memory = config.load memory := by
  have symbols : config.plain.bindSymbols memory = config.bindSymbols memory := by
    unfold bindSymbols
    rw [toList_plain, List.foldl_map]
    rfl
  unfold load
  rw [symbols, toList_plain]
  have entries : ∀ entry ∈ config.toList,
      ∀ trigger, entry.2.value = some (.computed trigger) → entry.2.onRead = none := by
    intro entry member
    exact single entry.1 entry.2 (mem_toList_iff.1 member)
  generalize config.toList = listed at entries
  generalize config.bindSymbols memory = start
  induction listed generalizing start with
  | nil => rfl
  | cons entry listed ih =>
    have first := applyCell_plain entry.1 start (entries entry List.mem_cons_self)
    rw [List.map_cons, List.foldlM_cons, List.foldlM_cons, first]
    congr 1
    funext middle
    exact ih (fun other member => entries other (List.mem_cons_of_mem entry member)) middle

end Config

/-- A read trigger that a registry knows by the label on it. -/
def Registry.NamesRead (registry : Registry) (trigger : ReadTrigger) : Prop :=
  ∃ label, trigger.label = some label ∧ registry.read label = .ok trigger

def Registry.NamesWrite (registry : Registry) (trigger : WriteTrigger) : Prop :=
  ∃ label, trigger.label = some label ∧ registry.write label = .ok trigger

/-- A description at a base that a file can express under a registry. -/
structure CellConfig.Expressible (registry : Registry) (base : Address) (cell : CellConfig) :
    Prop where
  computed : ∀ trigger, cell.value = some (.computed trigger) → registry.NamesRead trigger
  onRead : ∀ trigger, cell.onRead = some trigger → registry.NamesRead trigger
  onWrite : ∀ triggers, cell.onWrite = some triggers →
    ∀ trigger ∈ triggers, registry.NamesWrite trigger
  /-- A cell has one read trigger. -/
  single : ∀ trigger, cell.value = some (.computed trigger) → cell.onRead = none
  value : ∀ literal, cell.value = some (.literal literal) → literal ≠ .symbolRef ""
  items : ∀ literal ∈ cell.items base, literal ≠ .symbolRef ""

/-- A configuration that a file can express under a registry. -/
def Config.Expressible (registry : Registry) (config : Config) : Prop :=
  ∀ address cell, config.get? address = some cell → cell.Expressible registry address

namespace Entry

def labels (triggers : List WriteTrigger) : List String := triggers.filterMap (·.label)

private theorem labels_cons {trigger : WriteTrigger} {label : String}
    (labeled : trigger.label = some label) (triggers : List WriteTrigger) :
    labels (trigger :: triggers) = label :: labels triggers :=
  List.filterMap_cons_some labeled

def express (place : Address) (cell : CellConfig) : Entry :=
  assemble place cell (cell.readTrigger?.bind (·.label)) (cell.onWrite.map labels)

end Entry

/-- A written cell with the values of a block, if any. Values alone make a block. -/
def withValues (written : WrittenCell) : Option (List WrittenLiteral) → Entry
  | none => .cell written
  | some values =>
    if written.isBlock then .block values else .cell { written with values := some (.many values) }

theorem assemble_eq (place : Address) (cell : CellConfig) (onRead : Option String)
    (onWrite : Option (List String)) :
    Entry.assemble place cell onRead onWrite =
      withValues
        (Entry.writeSymbols
          { value := cell.literal?.map WrittenLiteral.ofLiteral
            onRead
            onWrite := onWrite.map .ofList } cell.symbols)
        (cell.values.map fun run => (run.valuesAt place).map WrittenLiteral.ofLiteral) := by
  unfold Entry.assemble CellConfig.literal?
  match cell.value with
  | none | some (.literal _) | some (.computed _) => cases cell.values <;> rfl

private theorem writeSymbols_eq (written : WrittenCell) (symbols : List String)
    (unnamed : written.symbol = none ∧ written.symbols = none) :
    ∃ one many, Entry.writeSymbols written symbols =
        { written with symbol := one, symbols := many } ∧
      one.toList ++ (many.map OneOrMany.toList).getD [] = symbols := by
  match symbols with
  | [] =>
    refine ⟨none, none, ?_, rfl⟩
    rw [← unnamed.1, ← unnamed.2]
    rfl
  | [symbol] =>
    refine ⟨some symbol, none, ?_, rfl⟩
    rw [← unnamed.2]
    rfl
  | first :: second :: rest =>
    refine ⟨none, some (.many (first :: second :: rest)), ?_, rfl⟩
    rw [← unnamed.1]
    rfl

private theorem toCell_withValues {registry : Registry} (written : WrittenCell)
    {value : Option Literal} {values : Option (List WrittenLiteral)}
    {items : Option (List Literal)} {onRead : Option ReadTrigger}
    {onWrite : Option (List WriteTrigger)} (without : written.values = none)
    (readValue : written.value.mapM WrittenLiteral.toLiteral = .ok value)
    (readItems : values.mapM (fun values => values.mapM WrittenLiteral.toLiteral) = .ok items)
    (readOnRead : written.onRead.mapM registry.read = .ok onRead)
    (readOnWrite : written.onWrite.mapM (fun names => names.toList.mapM registry.write) =
      .ok onWrite) :
    (withValues written values).toCell registry = .ok
      { symbols := written.name.toList ++ written.symbol.toList ++
          (written.symbols.map OneOrMany.toList).getD []
        value := value.map .literal
        values := items.map .items
        onRead
        onWrite } := by
  cases values with
  | none =>
    cases readItems
    rw [withValues, Entry.toCell, WrittenCell.toCell, readValue, without, readOnRead, readOnWrite]
    rfl
  | some listed =>
    cases read : listed.mapM WrittenLiteral.toLiteral with
    | error error =>
      rw [Option.mapM_some, read] at readItems
      cases readItems
    | ok literals =>
      rw [Option.mapM_some, read] at readItems
      cases readItems
      rw [withValues]
      split
      · rename_i block
        simp only [WrittenCell.isBlock, Bool.and_eq_true, Option.isNone_iff_eq_none] at block
        obtain ⟨⟨⟨⟨⟨noName, noSymbol⟩, noSymbols⟩, noValue⟩, noRead⟩, noWrite⟩ := block
        -- What is not written is read as missing, so nothing but the values is left.
        rw [noValue] at readValue
        rw [noRead] at readOnRead
        rw [noWrite] at readOnWrite
        cases readValue
        cases readOnRead
        cases readOnWrite
        rw [Entry.toCell, read, noName, noSymbol, noSymbols]
        rfl
      · have many : (some (OneOrMany.many listed)).mapM
            (fun values => values.toList.mapM WrittenLiteral.toLiteral) = .ok (some literals) := by
          rw [Option.mapM_some, OneOrMany.toList, read]
          rfl
        rw [Entry.toCell, WrittenCell.toCell, readValue, many, readOnRead, readOnWrite]
        rfl

namespace CellConfig.Expressible

variable {registry : Registry} {place : Address} {cell : CellConfig}

private theorem labels_read {triggers : List WriteTrigger}
    (named : ∀ trigger ∈ triggers, registry.NamesWrite trigger) (place : Address) :
    triggers.mapM (fun trigger => Entry.labelAt place trigger.label) =
        .ok (Entry.labels triggers) ∧
      (Entry.labels triggers).mapM registry.write = .ok triggers := by
  induction triggers with
  | nil => exact ⟨rfl, rfl⟩
  | cons trigger triggers ih =>
    obtain ⟨label, labeled, known⟩ := named trigger List.mem_cons_self
    obtain ⟨written, read⟩ :=
      ih fun other member => named other (List.mem_cons_of_mem trigger member)
    rw [Entry.labels_cons labeled]
    constructor
    · rw [List.mapM_cons, labeled, written]
      rfl
    · rw [List.mapM_cons, known, read]
      rfl

private theorem readTrigger_named (expressible : cell.Expressible registry place)
    {trigger : ReadTrigger} (own : cell.readTrigger? = some trigger) :
    registry.NamesRead trigger := by
  rcases CellConfig.of_readTrigger?_eq_some own with computed | onRead
  · exact expressible.computed trigger computed
  · exact expressible.onRead trigger onRead

theorem readLabel?_eq (expressible : cell.Expressible registry place) :
    Entry.readLabel? place cell = .ok (cell.readTrigger?.bind (·.label)) := by
  unfold Entry.readLabel? CellConfig.readTrigger? CellConfig.computed?
  match value : cell.value with
  | some (.computed trigger) =>
    obtain ⟨label, labeled, -⟩ := expressible.computed trigger value
    rw [expressible.single trigger value]
    simp only [labeled, Option.some_or, Option.bind_some]
    rfl
  | none | some (.literal _) =>
    cases own : cell.onRead with
    | none => rfl
    | some trigger =>
      obtain ⟨label, labeled, -⟩ := expressible.onRead trigger own
      simp only [labeled, Option.none_or, Option.bind_some, Option.mapM_some]
      rfl

theorem writeLabels?_eq (expressible : cell.Expressible registry place) :
    Entry.writeLabels? place cell = .ok (cell.onWrite.map Entry.labels) := by
  apply mapM_option_eq_pure
  intro triggers own
  exact (labels_read (expressible.onWrite triggers own) place).1

theorem ofCell_eq (expressible : cell.Expressible registry place) :
    Entry.ofCell true place cell = .ok (Entry.express place cell) := by
  unfold Entry.ofCell
  rw [if_pos rfl, expressible.readLabel?_eq, expressible.writeLabels?_eq]
  rfl

private theorem read_readLabel (expressible : cell.Expressible registry place) :
    (cell.readTrigger?.bind (·.label)).mapM registry.read = .ok cell.readTrigger? := by
  cases own : cell.readTrigger? with
  | none => rfl
  | some trigger =>
    obtain ⟨label, labeled, known⟩ := expressible.readTrigger_named own
    simp only [Option.bind_some, labeled, Option.mapM_some, known]
    rfl

private theorem read_writeLabels (expressible : cell.Expressible registry place) :
    ((cell.onWrite.map Entry.labels).map OneOrMany.ofList).mapM
      (fun names => names.toList.mapM registry.write) = .ok cell.onWrite := by
  have read : cell.onWrite.mapM
      (((fun names => names.toList.mapM registry.write) ∘ OneOrMany.ofList) ∘ Entry.labels) =
      .ok (cell.onWrite.map id) := by
    apply mapM_option_eq_pure
    intro triggers own
    simp only [Function.comp_apply, OneOrMany.toList_ofList]
    exact (labels_read (expressible.onWrite triggers own) place).2
  rw [mapM_option_map, mapM_option_map, read, Option.map_id_fun, id]

private theorem read_value (expressible : cell.Expressible registry place) :
    (cell.literal?.map WrittenLiteral.ofLiteral).mapM WrittenLiteral.toLiteral =
      .ok (cell.literal?.map Literal.plain) := by
  rw [mapM_option_map]
  apply mapM_option_eq_pure
  intro literal own
  have value := CellConfig.literal?_eq_some_iff.1 own
  exact WrittenLiteral.toLiteral_ofLiteral (expressible.value literal value)

private theorem read_values (expressible : cell.Expressible registry place) :
    (cell.values.map fun run => (run.valuesAt place).map WrittenLiteral.ofLiteral).mapM
        (fun values => values.mapM WrittenLiteral.toLiteral) =
      .ok (cell.values.map fun run => (run.valuesAt place).map Literal.plain) := by
  rw [mapM_option_map]
  apply mapM_option_eq_pure
  intro run own
  have items : cell.items place = run.valuesAt place := by
    obtain own : cell.values = some run := own
    rw [CellConfig.items, own, Option.map_some, Option.getD_some]
  rw [Function.comp_apply, List.mapM_map, ← items]
  exact mapM_eq_pure fun literal member =>
    WrittenLiteral.toLiteral_ofLiteral (expressible.items literal member)

theorem toCell_express (expressible : cell.Expressible registry place) :
    (Entry.express place cell).toCell registry = .ok (cell.plain place) := by
  let bare : WrittenCell :=
    { value := cell.literal?.map WrittenLiteral.ofLiteral
      onRead := cell.readTrigger?.bind (·.label)
      onWrite := (cell.onWrite.map Entry.labels).map OneOrMany.ofList }
  obtain ⟨one, many, written, names⟩ := writeSymbols_eq bare cell.symbols ⟨rfl, rfl⟩
  have read := toCell_withValues { bare with symbol := one, symbols := many } rfl
    expressible.read_value expressible.read_values expressible.read_readLabel
    expressible.read_writeLabels
  rw [Entry.express, assemble_eq, written, CellConfig.plain, ← names]
  refine read.trans ?_
  rw [Option.map_map, Option.map_map]
  rfl

end CellConfig.Expressible

theorem Config.mem_of_get?_ofList {entries : List (Address × CellConfig)} {address : Address}
    {cell : CellConfig} (ascending : Sparse.Ascending entries)
    (found : (ofList entries).get? address = some cell) : (address, cell) ∈ entries := by
  have listed := mem_toList_iff.2 found
  rw [toList, ofList, Sparse.toList_ofList ascending] at listed
  exact listed

/-- The file that stands for a configuration, with the labels of its triggers. -/
def Config.express (config : Config) : ConfigFile :=
  .ofList (config.toList.map fun entry => (entry.1, Entry.express entry.1 entry.2))

theorem Config.toList_express (config : Config) :
    config.express.toList = config.toList.map fun entry =>
      (entry.1, Entry.express entry.1 entry.2) :=
  Sparse.toList_ofList ((Sparse.ascending_toList config.cells).map Entry.express)

theorem ConfigFile.ofConfig_eq {config : Config} {callbacks : Bool}
    {write : Address → CellConfig → Entry}
    (each : ∀ address cell, config.get? address = some cell →
      Entry.ofCell callbacks address cell = .ok (write address cell)) :
    ofConfig config callbacks =
      .ok (.ofList (config.toList.map fun entry => (entry.1, write entry.1 entry.2))) := by
  have entries : config.toList.mapM (fun entry => do
      return (entry.1, ← Entry.ofCell callbacks entry.1 entry.2)) =
      Except.ok (config.toList.map fun entry => (entry.1, write entry.1 entry.2)) := by
    refine mapM_eq_pure fun entry member => ?_
    rw [each entry.1 entry.2 (Config.mem_toList_iff.1 member)]
    rfl
  rw [ofConfig, entries]
  rfl

theorem Config.ofConfig_eq_express {config : Config} {callbacks : Bool}
    (each : ∀ address cell, config.get? address = some cell →
      Entry.ofCell callbacks address cell = .ok (Entry.express address cell)) :
    ConfigFile.ofConfig config callbacks = .ok config.express :=
  ConfigFile.ofConfig_eq each

namespace Config.Expressible

variable {registry : Registry} {config : Config}

theorem ofList {entries : List (Address × CellConfig)} (ascending : Sparse.Ascending entries)
    (each : ∀ entry ∈ entries, entry.2.Expressible registry entry.1) :
    (Config.ofList entries).Expressible registry :=
  fun _ _ found => each _ (mem_of_get?_ofList ascending found)

/-- The file that stands for a configuration is read as the plain form of it. -/
theorem toConfig_express (expressible : config.Expressible registry) :
    config.express.toConfig registry = .ok config.plain := by
  have cells : config.toList.mapM ((fun entry => do
      return (entry.1, ← entry.2.toCell registry)) ∘
        fun entry => (entry.1, Entry.express entry.1 entry.2)) =
      Except.ok (config.toList.map fun entry => (entry.1, entry.2.plain entry.1)) := by
    refine mapM_eq_pure fun entry member => ?_
    rw [Function.comp_apply,
      (expressible entry.1 entry.2 (mem_toList_iff.1 member)).toCell_express]
    rfl
  rw [ConfigFile.toConfig, config.toList_express, List.mapM_map, cells]
  rfl

/--
A configuration whose triggers a registry knows is written without fail, the file is read
without fail, and what was read loads into every memory as the configuration does, with the
same memory or the same error.
-/
theorem load_reread (expressible : config.Expressible registry) :
    ∃ file reread, ConfigFile.ofConfig config true = .ok file ∧
      file.toConfig registry = .ok reread ∧
      ∀ memory, reread.load memory = config.load memory := by
  refine ⟨config.express, config.plain, ?_, expressible.toConfig_express, fun memory => ?_⟩
  · exact ofConfig_eq_express fun address cell found => (expressible address cell found).ofCell_eq
  · exact load_plain memory fun address cell found => (expressible address cell found).single

/-- A generated block with a digit in it, then a computed cell with a repeated symbol. -/
theorem load_reread_generated :
    let config := Config.ofList
      [(3, { values := some (.generated fun base => [.char '7', .number base.toInt64]) }),
        (6, { symbols := ["in", "in"]
              value := some (.computed ⟨some "getchar", 10⟩)
              onWrite := some [⟨some "putchar", 0⟩] })]
    config.Expressible .standard ∧
      ∃ file reread, ConfigFile.ofConfig config true = .ok file ∧
        file.toConfig .standard = .ok reread ∧
        ∀ memory, reread.load memory = config.load memory := by
  intro config
  have expressible : config.Expressible .standard := by
    apply ofList (by unfold Sparse.Ascending; decide)
    intro entry member
    rcases List.mem_cons.1 member with rfl | member
    · constructor <;> exact nofun
    · obtain rfl := List.mem_singleton.1 member
      constructor
      case computed =>
        intro trigger value
        cases value
        exact ⟨"getchar", rfl, rfl⟩
      case onWrite =>
        intro triggers own trigger listed
        cases own
        obtain rfl := List.mem_singleton.1 listed
        exact ⟨"putchar", rfl, rfl⟩
      case single => exact fun _ _ => rfl
      all_goals exact nofun
  exact ⟨expressible, expressible.load_reread⟩

end Config.Expressible

end MoveMachine
