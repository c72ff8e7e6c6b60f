import MoveMachine.Proofs.FileTriggers
import MoveMachine.Proofs.Refusal

/-!
Files with and without triggers. A configuration is written with its triggers unless one of them
has no label, and the error tells the first address with such a trigger. Without its triggers every
configuration is written, entry for entry, and no registry is needed to read the file: it loads
into every memory as the configuration does once its triggers are taken away.

A description of which nothing is left then does nothing. So the triggers of a memory can be left
out when it is described or when the description is written, which gives different files that
restore the same memory.
-/

set_option autoImplicit false

namespace MoveMachine

namespace CellConfig

/-- The labels of all triggers of a description, in the order in which they are looked at. -/
def triggerLabels (cell : CellConfig) : List (Option String) :=
  cell.computed?.toList.map (·.label) ++ cell.onRead.toList.map (·.label) ++
    (cell.onWrite.getD []).map (·.label)

/-- A description has a trigger that no file can name. -/
inductive Unlabeled (cell : CellConfig) : Prop
  | computed {trigger : ReadTrigger} :
      cell.value = some (.computed trigger) → trigger.label = none → Unlabeled cell
  | onRead {trigger : ReadTrigger} :
      cell.onRead = some trigger → trigger.label = none → Unlabeled cell
  | onWrite {triggers : List WriteTrigger} {trigger : WriteTrigger} :
      cell.onWrite = some triggers → trigger ∈ triggers → trigger.label = none → Unlabeled cell

/-- The description without its triggers, and without a value that is computed. -/
def untriggered (cell : CellConfig) : CellConfig :=
  { cell with value := cell.literal?.map .literal, onRead := none, onWrite := none }

theorem none_mem_triggerLabels_iff {cell : CellConfig} :
    none ∈ cell.triggerLabels ↔ cell.Unlabeled := by
  simp only [triggerLabels, List.mem_append, List.mem_map, Option.mem_toList, or_assoc]
  constructor
  · rintro (⟨trigger, computed, missing⟩ | ⟨trigger, own, missing⟩ | ⟨trigger, listed, missing⟩)
    · exact .computed (computed?_eq_some_iff.1 computed) missing
    · exact .onRead own missing
    · cases triggers : cell.onWrite with
      | none =>
        rw [triggers] at listed
        cases listed
      | some all =>
        rw [triggers] at listed
        exact .onWrite triggers listed missing
  · rintro (⟨value, missing⟩ | ⟨own, missing⟩ | ⟨triggers, listed, missing⟩)
    · exact .inl ⟨_, computed?_eq_some_iff.2 value, missing⟩
    · exact .inr (.inl ⟨_, own, missing⟩)
    · refine .inr (.inr ⟨_, ?_, missing⟩)
      rw [triggers]
      exact listed

end CellConfig

def Config.untriggered (config : Config) : Config :=
  ⟨config.cells.map fun _ cell => cell.untriggered⟩

namespace Entry

theorem refusal?_labelAt (place : Address) (label? : Option String) :
    refusal? (labelAt place label?) =
      if label? = none then some (.unlabeledTrigger place) else none := by
  cases label? <;> rfl

theorem refusal?_ofCell (place : Address) (cell : CellConfig) :
    refusal? (ofCell true place cell) =
      cell.triggerLabels.findSome? fun label? => refusal? (labelAt place label?) := by
  have computed := refusal?_mapM_option
    (fun trigger : ReadTrigger => labelAt place trigger.label) cell.computed?
  have own := refusal?_mapM_option
    (fun trigger : ReadTrigger => labelAt place trigger.label) cell.onRead
  have writes : refusal? (writeLabels? place cell) =
      (cell.onWrite.getD []).findSome? fun trigger => refusal? (labelAt place trigger.label) := by
    rw [writeLabels?]
    cases cell.onWrite with
    | none => rfl
    | some triggers =>
      rw [Option.mapM_some, refusal?_map, Option.getD_some]
      exact refusal?_mapM _ triggers
  have reads : refusal? (readLabel? place cell) =
      (cell.computed?.toList.findSome? fun trigger => refusal? (labelAt place trigger.label)).or
        (cell.onRead.toList.findSome? fun trigger => refusal? (labelAt place trigger.label)) := by
    rw [readLabel?_eq_bind, ← computed, ← own]
    apply refusal?_bind
    intro label? _
    exact refusal?_map _ fun own : Option String => own.or label?
  rw [ofCell, if_pos rfl, CellConfig.triggerLabels]
  simp only [List.findSome?_append, List.findSome?_map, Function.comp_def]
  rw [← writes, ← reads]
  apply refusal?_bind
  intro label? _
  exact refusal?_map _ (assemble place cell label?)

theorem refusal?_ofCell_eq_some_iff {place : Address} {cell : CellConfig} {error : ConfigError} :
    refusal? (ofCell true place cell) = some error ↔
      cell.Unlabeled ∧ error = .unlabeledTrigger place := by
  have only : ∀ reason, refusal? (ofCell true place cell) = some reason →
      cell.Unlabeled ∧ reason = .unlabeledTrigger place := by
    intro reason refused
    rw [refusal?_ofCell] at refused
    obtain ⟨label?, listed, own⟩ := List.exists_of_findSome?_eq_some refused
    rw [refusal?_labelAt] at own
    split at own
    · rename_i missing
      subst missing
      exact ⟨CellConfig.none_mem_triggerLabels_iff.1 listed, (Option.some.inj own).symm⟩
    · cases own
  constructor
  · exact only error
  · rintro ⟨unlabeled, rfl⟩
    have refused : (refusal? (ofCell true place cell)).isSome := by
      rw [refusal?_ofCell, List.findSome?_isSome_iff]
      exact ⟨none, CellConfig.none_mem_triggerLabels_iff.2 unlabeled, rfl⟩
    obtain ⟨reason, refused⟩ := Option.isSome_iff_exists.1 refused
    rw [refused, (only reason refused).2]

end Entry

namespace ConfigFile

variable {config : Config}

theorem refusal?_ofConfig (config : Config) :
    refusal? (ofConfig config true) =
      config.toList.findSome? fun entry => refusal? (Entry.ofCell true entry.1 entry.2) := by
  have entries : ∀ entry : Address × CellConfig,
      refusal? (do return (entry.1, ← Entry.ofCell true entry.1 entry.2)) =
        refusal? (Entry.ofCell true entry.1 entry.2) :=
    fun entry => refusal?_map _ (entry.1, ·)
  simp only [← entries]
  rw [← refusal?_mapM]
  exact refusal?_map _ ofList

theorem ofConfig_eq_error_iff {error : ConfigError} :
    ofConfig config true = .error error ↔
      ∃ address cell, config.get? address = some cell ∧ cell.Unlabeled ∧
        error = .unlabeledTrigger address ∧
        ∀ other content, config.get? other = some content → content.Unlabeled →
          address ≤ other := by
  have asymm : ∀ entry next : Address × CellConfig, entry.1 < next.1 → ¬ next.1 < entry.1 :=
    fun _ _ => UInt64.lt_asymm
  have ascending : Sparse.Ascending config.toList := Sparse.ascending_toList config.cells
  rw [← refusal?_eq_some_iff, refusal?_ofConfig,
    Config.findSome?_eq_some_iff_first asymm ascending]
  simp only [Entry.refusal?_ofCell_eq_some_iff, Prod.exists, Prod.forall, Config.mem_toList_iff]
  constructor
  · rintro ⟨address, cell, described, ⟨unlabeled, rfl⟩, first⟩
    refine ⟨address, cell, described, unlabeled, rfl, fun other content known missing => ?_⟩
    exact UInt64.not_lt.1 (first other content known _ ⟨missing, rfl⟩)
  · rintro ⟨address, cell, described, unlabeled, rfl, first⟩
    refine ⟨address, cell, described, ⟨unlabeled, rfl⟩, ?_⟩
    rintro other content known reason ⟨missing, -⟩
    exact UInt64.not_lt.2 (first other content known missing)

theorem exists_error_iff_unlabeled :
    (∃ error, ofConfig config true = .error error) ↔
      ∃ address cell, config.get? address = some cell ∧ cell.Unlabeled := by
  have refused : (∃ error, ofConfig config true = .error error) ↔
      (refusal? (ofConfig config true)).isSome := by
    rw [Option.isSome_iff_exists]
    simp only [refusal?_eq_some_iff]
  rw [refused, refusal?_ofConfig, List.findSome?_isSome_iff]
  simp only [Option.isSome_iff_exists, Entry.refusal?_ofCell_eq_some_iff, exists_and_left,
    exists_eq, and_true, Prod.exists, Config.mem_toList_iff]

end ConfigFile

namespace CellConfig

theorem literal?_untriggered (cell : CellConfig) : cell.untriggered.literal? = cell.literal? := by
  unfold untriggered
  cases own : cell.literal? <;> rfl

theorem readTrigger?_untriggered (cell : CellConfig) : cell.untriggered.readTrigger? = none := by
  unfold untriggered readTrigger?
  cases own : cell.literal? <;> rfl

theorem expressible_untriggered {registry : Registry} {base : Address} {cell : CellConfig}
    (value : ∀ literal, cell.value = some (.literal literal) → literal ≠ .symbolRef "")
    (items : ∀ literal ∈ cell.items base, literal ≠ .symbolRef "") :
    cell.untriggered.Expressible registry base := by
  have uncomputed : ∀ trigger, cell.untriggered.value ≠ some (.computed trigger) := by
    intro trigger computed
    obtain ⟨literal, -, same⟩ := Option.map_eq_some_iff.1 computed
    cases same
  constructor
  case computed => exact fun trigger computed => absurd computed (uncomputed trigger)
  case single => exact fun trigger computed => absurd computed (uncomputed trigger)
  case onRead => exact nofun
  case onWrite => exact nofun
  case items => exact items
  case value =>
    intro literal own
    rw [← literal?_eq_some_iff, literal?_untriggered, literal?_eq_some_iff] at own
    exact value literal own

theorem eq_of_isEmpty {cell : CellConfig} (empty : cell.isEmpty = true) : cell = {} := by
  simp only [isEmpty, Bool.and_eq_true, List.isEmpty_iff, Option.isNone_iff_eq_none] at empty
  obtain ⟨symbols, value, values, onRead, onWrite⟩ := cell
  obtain ⟨⟨⟨⟨rfl, rfl⟩, rfl⟩, rfl⟩, rfl⟩ := empty
  rfl

end CellConfig

theorem Entry.ofCell_untriggered (place : Address) (cell : CellConfig) :
    ofCell false place cell = .ok (express place cell.untriggered) := by
  have bare : express place cell.untriggered = assemble place cell.untriggered none none := by
    rw [express, CellConfig.readTrigger?_untriggered]
    rfl
  rw [bare, assemble_eq, CellConfig.literal?_untriggered]
  exact congrArg Except.ok (assemble_eq place cell none none)

namespace Config

variable {config : Config}

theorem get?_untriggered (config : Config) (address : Address) :
    config.untriggered.get? address = (config.get? address).map CellConfig.untriggered :=
  Std.ExtTreeMap.getElem?_map

theorem toList_untriggered (config : Config) :
    config.untriggered.toList = config.toList.map fun entry => (entry.1, entry.2.untriggered) :=
  Std.ExtTreeMap.toList_map

theorem ofConfig_untriggered (config : Config) :
    ConfigFile.ofConfig config false = .ok config.untriggered.express := by
  rw [express, toList_untriggered, List.map_map]
  exact ConfigFile.ofConfig_eq fun address cell _ => Entry.ofCell_untriggered address cell

theorem expressible_untriggered (named : ∀ position, ¬ config.Holds position (.symbolRef ""))
    (registry : Registry) : config.untriggered.Expressible registry := by
  intro address cell described
  rw [get?_untriggered] at described
  obtain ⟨original, found, rfl⟩ := Option.map_eq_some_iff.1 described
  apply CellConfig.expressible_untriggered
  · rintro literal value rfl
    exact named ⟨address, none⟩ ⟨original, found, value⟩
  · rintro literal item rfl
    obtain ⟨index, listed⟩ := List.mem_iff_getElem?.1 item
    cases values : original.values with
    | none => simp [CellConfig.items, values] at item
    | some block =>
      refine named ⟨address, some index⟩ ⟨original, found, block, values, ?_⟩
      simpa [CellConfig.items, values] using listed

/-- The descriptions that say something, by ascending address. -/
def told (config : Config) : List (Address × CellConfig) :=
  config.toList.filter fun entry => !entry.2.isEmpty

theorem mem_told_iff {address : Address} {cell : CellConfig} :
    (address, cell) ∈ config.told ↔
      config.get? address = some cell ∧ cell.isEmpty = false := by
  rw [told, List.mem_filter, mem_toList_iff, Bool.not_eq_true']

theorem ascending_told (config : Config) : Sparse.Ascending config.told :=
  (Sparse.ascending_toList config.cells).filter _

/-- Descriptions that say nothing do nothing. -/
theorem load_eq_foldlM_told (config : Config) (memory : Memory) :
    config.load memory =
      config.told.foldlM (fun memory entry => applyCell entry.1 entry.2 memory)
        (config.told.foldl (fun memory entry =>
          entry.2.symbols.foldl (fun memory name => memory.bind name entry.1) memory) memory) := by
  have applied : ∀ (memory : Memory) (entry : Address × CellConfig),
      (if !entry.2.isEmpty then applyCell entry.1 entry.2 memory else pure memory) =
        applyCell entry.1 entry.2 memory := by
    intro memory entry
    cases empty : entry.2.isEmpty with
    | false => rfl
    | true =>
      rw [CellConfig.eq_of_isEmpty empty]
      rfl
  have bound : ∀ (memory : Memory) (entry : Address × CellConfig),
      (if !entry.2.isEmpty then
        entry.2.symbols.foldl (fun memory name => memory.bind name entry.1) memory else memory) =
          entry.2.symbols.foldl (fun memory name => memory.bind name entry.1) memory := by
    intro memory entry
    cases empty : entry.2.isEmpty with
    | false => rfl
    | true =>
      rw [CellConfig.eq_of_isEmpty empty]
      rfl
  rw [load, bindSymbols, told, List.foldlM_filter, List.foldl_filter]
  simp only [applied, bound]

theorem load_congr {other : Config}
    (same : ∀ address cell, cell.isEmpty = false →
      (config.get? address = some cell ↔ other.get? address = some cell)) (memory : Memory) :
    config.load memory = other.load memory := by
  have told : config.told = other.told := by
    apply config.ascending_told.eq_of_mem_iff other.ascending_told
    rintro ⟨address, cell⟩
    rw [mem_told_iff, mem_told_iff]
    exact and_congr_left (same address cell)
  rw [load_eq_foldlM_told, load_eq_foldlM_told, told]

theorem untriggered_cellOfMemory (memory : Memory) (callbacks : Bool) (address : Address) :
    (cellOfMemory memory callbacks address).untriggered = cellOfMemory memory false address := by
  have value : (cellOfMemory memory callbacks address).literal?.map CellValue.literal =
      (memory.stored address).map fun word => .literal (.number word) := by
    rw [CellConfig.literal?, value_cellOfMemory]
    cases memory.stored address <;> rfl
  rw [CellConfig.untriggered, value, symbols_cellOfMemory, values_cellOfMemory]
  rfl

theorem load_untriggered_ofMemory (memory start : Memory) (callbacks : Bool) :
    (ofMemory memory callbacks).untriggered.load start = (ofMemory memory false).load start := by
  apply load_congr
  intro address cell nonempty
  have bare := untriggered_cellOfMemory memory callbacks address
  rw [get?_untriggered, get?_ofMemory, get?_ofMemory]
  by_cases empty : (cellOfMemory memory callbacks address).isEmpty = true
  · have nothing : (cellOfMemory memory false address).isEmpty = true := by
      rw [← bare, CellConfig.eq_of_isEmpty empty]
      rfl
    rw [if_pos empty, if_pos nothing, Option.map_none]
  · rw [if_neg empty, Option.map_some, bare]
    split
    · -- Nothing but triggers was described, so what is left says nothing.
      rename_i nothing
      constructor
      · intro same
        rw [← Option.some.inj same, nothing] at nonempty
        cases nonempty
      · exact nofun
    · rfl

theorem reread_untriggered (named : ∀ position, ¬ config.Holds position (.symbolRef ""))
    (registry : Registry) :
    ∃ reread, config.untriggered.express.toConfig registry = .ok reread ∧
      ∀ memory, reread.load memory = config.untriggered.load memory := by
  have expressible := expressible_untriggered named registry
  refine ⟨config.untriggered.plain, expressible.toConfig_express, fun memory => ?_⟩
  exact load_plain memory fun address cell found => (expressible address cell found).single

theorem not_holds_ofMemory (memory : Memory) (callbacks : Bool) (position : Position)
    (name : String) : ¬ (ofMemory memory callbacks).Holds position (.symbolRef name) := by
  rintro ⟨cell, described, held⟩
  rw [get?_ofMemory] at described
  split at described
  · cases described
  · cases described
    obtain ⟨base, item⟩ := position
    cases item with
    | none =>
      obtain ⟨word, -, same⟩ :=
        Option.map_eq_some_iff.1 ((value_cellOfMemory memory callbacks base).symm.trans held)
      cases same
    | some index =>
      obtain ⟨block, values, -⟩ := held
      rw [values_cellOfMemory] at values
      cases values

end Config

/--
A configuration is written with its triggers unless one has no label, and then the error tells the
lowest address with such a trigger. Without them it is always written, address for address. Unless
it refers to the empty name, every registry reads that file, and what was read loads into every
memory as the configuration without its triggers does, with the same memory or the same error. So
it does not matter whether the triggers of a memory are left out of its description or of the file:
both give a memory with the stored values and the names of the first, and with no trigger.
-/
theorem ConfigFile.loses_only_triggers (config : Config) :
    ((∃ error, ofConfig config true = .error error) ↔
      ∃ address cell, config.get? address = some cell ∧ cell.Unlabeled) ∧
    (∀ error, ofConfig config true = .error error ↔
      ∃ address cell, config.get? address = some cell ∧ cell.Unlabeled ∧
        error = .unlabeledTrigger address ∧
        ∀ other content, config.get? other = some content → content.Unlabeled →
          address ≤ other) ∧
    (∃ file, ofConfig config false = .ok file ∧
      file.toList.map (·.1) = config.toList.map (·.1) ∧
      ((∀ position, ¬ config.Holds position (.symbolRef "")) → ∀ registry,
        ∃ reread, file.toConfig registry = .ok reread ∧
          ∀ memory, reread.load memory = config.untriggered.load memory)) ∧
    ∀ memory : Memory, ∃ restored : Memory,
      (∀ callbacks registry, ∃ file reread,
        ofConfig (.ofMemory memory callbacks) false = .ok file ∧
        file.toConfig registry = .ok reread ∧ reread.load {} = .ok restored) ∧
      (∀ address, restored.stored address = memory.stored address) ∧
      (∀ address, restored.symbols.aliasesOf address = memory.symbols.aliasesOf address) ∧
      ∀ address, restored.readTrigger address = none ∧ restored.writeTriggers address = [] := by
  refine ⟨exists_error_iff_unlabeled, fun _ => ofConfig_eq_error_iff, ?written, ?restored⟩
  case written =>
    refine ⟨config.untriggered.express, config.ofConfig_untriggered, ?_, fun named registry =>
      Config.reread_untriggered named registry⟩
    rw [Config.toList_express, Config.toList_untriggered, List.map_map, List.map_map]
    rfl
  case restored =>
    intro memory
    obtain ⟨restored, loaded, symbols, -, cells⟩ := Config.load_ofMemory memory false
    refine ⟨restored, fun callbacks registry => ?_, fun address => ?_, fun address => ?_,
      fun address => ⟨?_, ?_⟩⟩
    · have named := fun position => Config.not_holds_ofMemory memory callbacks position ""
      obtain ⟨reread, read, loads⟩ := Config.reread_untriggered named registry
      refine ⟨_, reread, Config.ofConfig_untriggered _, read, ?_⟩
      rw [loads, Config.load_untriggered_ofMemory, loaded]
    · rw [Memory.stored, cells]
      rfl
    · rw [symbols]
    · exact congrArg Cell.onRead (cells address)
    · exact congrArg Cell.onWrite (cells address)

/--
Two cells with triggers that have no label, of which the lower one also has a block with a digit in
it. Without the triggers the block is still there, and the upper cell has an entry of its own.
-/
theorem ConfigFile.loses_only_triggers_mixed :
    let config := Config.ofList
      [(4, { symbols := ["in"]
             value := some (.computed ⟨none, 0⟩)
             values := some (.generated fun base => [.char '7', .number base.toInt64]) }),
        (9, { onRead := some ⟨some "add", 0⟩
              onWrite := some [⟨some "putchar", 0⟩, ⟨none, 1⟩] })]
    ofConfig config true = .error (.unlabeledTrigger 4) ∧
      (∀ position, ¬ config.Holds position (.symbolRef "")) ∧
      ∃ file reread, ofConfig config false = .ok file ∧ file.toList.map (·.1) = [4, 9] ∧
        file.toConfig {} = .ok reread ∧
        ∀ memory, reread.load memory = config.untriggered.load memory := by
  intro config
  obtain ⟨-, -, ⟨file, written, addresses, loads⟩, -⟩ := loses_only_triggers config
  have named : ∀ position, ¬ config.Holds position (.symbolRef "") := by
    have absent : Literal.symbolRef "" ∉ config.literals.map Prod.snd := by decide
    intro position held
    exact absent (List.mem_map_of_mem (Config.mem_literals_iff.2 held))
  have refused : refusal? (ofConfig config true) = some (.unlabeledTrigger 4) := by decide
  have listed : config.toList.map (·.1) = [4, 9] := by decide
  obtain ⟨reread, read, same⟩ := loads named {}
  exact ⟨refusal?_eq_some_iff.1 refused, named, file, reread, written, addresses.trans listed,
    read, same⟩

end MoveMachine
