import MoveMachine.Proofs.FileMeaning

set_option autoImplicit false

namespace MoveMachine

namespace Entry

/-- The device that computes the cell, as far as a file names it. -/
def onRead? : Entry → Option String
  | .cell content => content.onRead
  | .literal _ | .block _ => none

def onWrite? : Entry → Option (List String)
  | .cell content => content.onWrite.map (·.toList)
  | .literal _ | .block _ => none

theorem triggers_writeSymbols (written : WrittenCell) (symbols : List String) :
    (writeSymbols written symbols).onRead = written.onRead ∧
      (writeSymbols written symbols).onWrite = written.onWrite := by
  unfold writeSymbols
  split <;> exact ⟨rfl, rfl⟩

theorem triggers_withValues (written : WrittenCell) (values : Option (List WrittenLiteral)) :
    (withValues written values).onRead? = written.onRead ∧
      (withValues written values).onWrite? = written.onWrite.map (·.toList) := by
  cases values with
  | none => exact ⟨rfl, rfl⟩
  | some values =>
    rw [withValues]
    split
    · rename_i block
      simp only [WrittenCell.isBlock, Bool.and_eq_true, Option.isNone_iff_eq_none] at block
      obtain ⟨⟨-, noRead⟩, noWrite⟩ := block
      rw [noRead, noWrite]
      exact ⟨rfl, rfl⟩
    · exact ⟨rfl, rfl⟩

theorem triggers_assemble (place : Address) (cell : CellConfig) (onRead : Option String)
    (onWrite : Option (List String)) :
    (assemble place cell onRead onWrite).onRead? = onRead ∧
      (assemble place cell onRead onWrite).onWrite? = onWrite := by
  rw [assemble_eq]
  refine ⟨?_, ?_⟩
  · rw [(triggers_withValues _ _).1, (triggers_writeSymbols _ _).1]
  · rw [(triggers_withValues _ _).2, (triggers_writeSymbols _ _).2]
    cases onWrite <;> simp

theorem labelAt_eq_ok {place : Address} {label? : Option String} {label : String}
    (named : labelAt place label? = .ok label) : label? = some label := by
  cases label? with
  | none => cases named
  | some other => exact congrArg some (Except.ok.inj named)

/-- What computes a value and what a cell is read by are named alike, and the latter wins. -/
theorem readLabel?_eq_bind (place : Address) (cell : CellConfig) :
    readLabel? place cell = do
      let computed ← cell.computed?.mapM fun trigger => labelAt place trigger.label
      let own ← cell.onRead.mapM fun trigger => labelAt place trigger.label
      return own.or computed := by
  unfold readLabel? CellConfig.computed?
  match cell.value with
  | none | some (.literal _) => rfl
  | some (.computed trigger) =>
    obtain ⟨label, id⟩ := trigger
    cases label <;> rfl

private theorem label?_eq_ok {place : Address} {trigger? : Option ReadTrigger}
    {label? : Option String}
    (named : (trigger?.mapM fun trigger => labelAt place trigger.label) = .ok label?) :
    trigger?.map (·.label) = label?.map some := by
  cases trigger? with
  | none =>
    cases named
    rfl
  | some trigger =>
    rw [Option.mapM_some, map_eq_pure_bind] at named
    obtain ⟨label, own, same⟩ := exists_of_bind_eq_ok named
    cases same
    exact congrArg some (labelAt_eq_ok own)

theorem readLabel?_eq_ok {place : Address} {cell : CellConfig} {label? : Option String}
    (named : readLabel? place cell = .ok label?) :
    ∃ computed own : Option String, cell.computed?.map (·.label) = computed.map some ∧
      cell.onRead.map (·.label) = own.map some ∧ label? = own.or computed := by
  rw [readLabel?_eq_bind] at named
  obtain ⟨computed, first, named⟩ := exists_of_bind_eq_ok named
  obtain ⟨own, second, same⟩ := exists_of_bind_eq_ok named
  cases same
  exact ⟨computed, own, label?_eq_ok first, label?_eq_ok second, rfl⟩

theorem ofCell_eq_ok {place : Address} {cell : CellConfig} {entry : Entry}
    (made : ofCell true place cell = .ok entry) :
    ∃ label? labels?, readLabel? place cell = .ok label? ∧
      writeLabels? place cell = .ok labels? ∧ entry = assemble place cell label? labels? := by
  rw [ofCell, if_pos rfl] at made
  obtain ⟨label?, reads, made⟩ := exists_of_bind_eq_ok made
  obtain ⟨labels?, writes, same⟩ := exists_of_bind_eq_ok made
  cases same
  exact ⟨label?, labels?, reads, writes, rfl⟩

theorem labels_eq_ok {place : Address} {triggers : List WriteTrigger} {names : List String}
    (named : triggers.mapM (fun trigger => labelAt place trigger.label) = .ok names) :
    triggers.map (·.label) = names.map some := by
  induction triggers generalizing names with
  | nil =>
    cases named
    rfl
  | cons trigger triggers ih =>
    rw [List.mapM_cons] at named
    obtain ⟨label, first, named⟩ := exists_of_bind_eq_ok named
    obtain ⟨others, rest, same⟩ := exists_of_bind_eq_ok named
    cases same
    rw [List.map_cons, List.map_cons, labelAt_eq_ok first, ih rest]

end Entry

/-- A description gives a cell two read triggers that go by different names. -/
def CellConfig.Disputed (cell : CellConfig) : Prop :=
  ∃ computed own, cell.computed? = some computed ∧ cell.onRead = some own ∧
    computed.label ≠ own.label

namespace CellConfig

variable {cell : CellConfig}

theorem not_disputed (single : cell.computed? = none ∨ cell.onRead = none) : ¬ cell.Disputed := by
  rintro ⟨computed, own, isComputed, isOwn, -⟩
  rcases single with none_computed | none_own
  · rw [none_computed] at isComputed
    cases isComputed
  · rw [none_own] at isOwn
    cases isOwn

theorem disputed_iff {computed own : ReadTrigger} (isComputed : cell.computed? = some computed)
    (isOwn : cell.onRead = some own) : cell.Disputed ↔ computed.label ≠ own.label := by
  constructor
  · rintro ⟨first, second, isFirst, isSecond, differ⟩
    cases isComputed.symm.trans isFirst
    cases isOwn.symm.trans isSecond
    exact differ
  · exact fun differ => ⟨computed, own, isComputed, isOwn, differ⟩

end CellConfig

theorem Entry.names_readTrigger {place : Address} {cell : CellConfig} {label? : Option String}
    (named : readLabel? place cell = .ok label?) {installed : ReadTrigger}
    (sets : cell.readTrigger? = some installed) :
    ∃ name, label? = some name ∧ (installed.label = some name ↔ ¬ cell.Disputed) := by
  obtain ⟨computedLabel, ownLabel, computedNamed, ownNamed, rfl⟩ := readLabel?_eq_ok named
  cases computed : cell.computed? with
  | none =>
    have own : cell.onRead = some installed := by
      rw [CellConfig.readTrigger?, computed] at sets
      exact sets
    rw [own] at ownNamed
    obtain ⟨name, rfl, labeled⟩ := Option.map_eq_some_iff.1 ownNamed.symm
    have undisputed := CellConfig.not_disputed (.inl computed)
    exact ⟨name, rfl, fun _ => undisputed, fun _ => labeled.symm⟩
  | some trigger =>
    obtain rfl : trigger = installed := by
      rw [CellConfig.readTrigger?, computed] at sets
      exact Option.some.inj sets
    rw [computed] at computedNamed
    obtain ⟨label, rfl, labeled⟩ := Option.map_eq_some_iff.1 computedNamed.symm
    cases own : cell.onRead with
    | none =>
      rw [own] at ownNamed
      obtain rfl : ownLabel = none := Option.map_eq_none_iff.1 ownNamed.symm
      have undisputed := CellConfig.not_disputed (.inr own)
      exact ⟨label, rfl, fun _ => undisputed, fun _ => labeled.symm⟩
    | some other =>
      rw [own] at ownNamed
      obtain ⟨name, rfl, otherLabeled⟩ := Option.map_eq_some_iff.1 ownNamed.symm
      have otherName : other.label = some name := otherLabeled.symm
      refine ⟨name, rfl, ?_⟩
      rw [CellConfig.disputed_iff computed own, otherName, Decidable.not_not]

namespace ConfigFile

variable {config : Config} {file : ConfigFile}

theorem exists_entry {callbacks : Bool} (written : ofConfig config callbacks = .ok file)
    {address : Address} {cell : CellConfig} (described : config.get? address = some cell) :
    ∃ entry, file.entries[address]? = some entry ∧
      Entry.ofCell callbacks address cell = .ok entry := by
  let write (address : Address) (cell : CellConfig) : Entry :=
    (Entry.ofCell callbacks address cell).toOption.getD default
  have each : ∀ address cell, config.get? address = some cell →
      Entry.ofCell callbacks address cell = .ok (write address cell) := by
    intro address cell described
    obtain ⟨entries, listed, -⟩ := exists_of_bind_eq_ok written
    obtain ⟨pair, made⟩ :=
      exists_of_mapM_eq_ok listed (address, cell) (Config.mem_toList_iff.2 described)
    obtain ⟨entry, made, -⟩ := exists_of_bind_eq_ok made
    have same : write address cell = entry := by
      simp only [write, made, Except.toOption, Option.getD_some]
    rw [same, made]
  obtain rfl := Except.ok.inj (written.symm.trans (ofConfig_eq each))
  refine ⟨write address cell, ?_, each address cell described⟩
  have listed : (ofList (config.toList.map fun entry =>
      (entry.1, write entry.1 entry.2))).entries.toList =
        config.toList.map fun entry => (entry.1, write entry.1 entry.2) :=
    Sparse.toList_ofList ((Sparse.ascending_toList config.cells).map write)
  rw [← Std.ExtTreeMap.mem_toList_iff_getElem?_eq_some, listed]
  exact List.mem_map.2 ⟨(address, cell), Config.mem_toList_iff.2 described, rfl⟩

/--
A file that was written names the triggers that loading the configuration installs: the write
triggers of a cell in order, and its read trigger, unless the description gives it another one
that goes by another name.
-/
theorem names_triggers {before after : Memory} (written : ofConfig config true = .ok file)
    (loaded : config.load before = .ok after) :
    ∀ address cell, config.get? address = some cell →
      ∃ entry, file.entries[address]? = some entry ∧
        (cell.readTrigger?.isSome → ∃ installed name,
          after.readTrigger address = some installed ∧ entry.onRead? = some name ∧
            (installed.label = some name ↔ ¬ cell.Disputed)) ∧
        (cell.onWrite.isSome → ∃ names, entry.onWrite? = some names ∧
          (after.writeTriggers address).map (·.label) = names.map some) := by
  intro address cell described
  obtain ⟨entry, found, made⟩ := exists_entry written described
  obtain ⟨reads, writes⟩ := Config.triggers_of_load loaded address
  rw [described, Option.bind_some] at reads writes
  obtain ⟨label?, labels?, namedRead, namedWrite, rfl⟩ := Entry.ofCell_eq_ok made
  obtain ⟨ownRead, ownWrite⟩ := Entry.triggers_assemble address cell label? labels?
  refine ⟨_, found, ?_, ?_⟩
  · intro sets
    obtain ⟨installed, sets⟩ := Option.isSome_iff_exists.1 sets
    obtain ⟨name, rfl, agrees⟩ := Entry.names_readTrigger namedRead sets
    rw [sets, Option.some_or] at reads
    exact ⟨installed, name, reads, ownRead, agrees⟩
  · intro sets
    obtain ⟨triggers, sets⟩ := Option.isSome_iff_exists.1 sets
    rw [sets, Option.getD_some] at writes
    rw [Entry.writeLabels?, sets, Option.mapM_some, map_eq_pure_bind] at namedWrite
    obtain ⟨names, named, same⟩ := exists_of_bind_eq_ok namedWrite
    cases same
    rw [writes]
    exact ⟨names, ownWrite, Entry.labels_eq_ok named⟩

/-- A sum with a difference in front of it, a product in its place, and two prints of a word. -/
theorem names_triggers_mixed :
    let config := Config.ofList
      [(4, { value := some (.computed ⟨some "add", 0⟩), onRead := some ⟨some "sub", 1⟩ }),
        (6, { values := some (.items [.number 1]), onRead := some ⟨some "mul", 2⟩ }),
        (12, { onWrite := some [⟨some "putchar", 0⟩, ⟨some "putchar", 0⟩] })]
    ∃ file after, ofConfig config true = .ok file ∧ config.load {} = .ok after ∧
      ∀ address cell, config.get? address = some cell →
        ∃ entry, file.entries[address]? = some entry ∧
          (cell.readTrigger?.isSome → ∃ installed name,
            after.readTrigger address = some installed ∧ entry.onRead? = some name ∧
              (installed.label = some name ↔ ¬ cell.Disputed)) ∧
          (cell.onWrite.isSome → ∃ names, entry.onWrite? = some names ∧
            (after.writeTriggers address).map (·.label) = names.map some) := by
  intro config
  have computed : ((ofConfig config true).toOption.isSome && (config.load {}).toOption.isSome) =
      true := by decide
  rw [Bool.and_eq_true, Option.isSome_iff_exists, Option.isSome_iff_exists] at computed
  obtain ⟨⟨file, made⟩, after, installed⟩ := computed
  have written := eq_ok_of_toOption made
  have loaded := eq_ok_of_toOption installed
  exact ⟨file, after, written, loaded, names_triggers written loaded⟩

/-- Loading installs the trigger that computes the value, and the file names the other one. -/
theorem names_other_trigger :
    let config := Config.ofList
      [(4, { value := some (.computed ⟨some "add", 0⟩), onRead := some ⟨some "sub", 1⟩ })]
    ∃ file after, ofConfig config true = .ok file ∧ config.load {} = .ok after ∧
      (after.readTrigger 4).map (·.label) = some (some "add") ∧
      file.entries[(4 : Address)]?.map (·.onRead?) = some (some "sub") := by
  intro config
  have computed : ((ofConfig config true).toOption.bind fun file =>
      (config.load {}).toOption.map fun after => ((after.readTrigger 4).map (·.label),
        file.entries[(4 : Address)]?.map (·.onRead?))) =
      some (some (some "add"), some (some "sub")) := by decide
  obtain ⟨file, made, computed⟩ := Option.bind_eq_some_iff.1 computed
  obtain ⟨after, installed, views⟩ := Option.map_eq_some_iff.1 computed
  obtain ⟨read, named⟩ := Prod.mk.inj views
  exact ⟨file, after, eq_ok_of_toOption made, eq_ok_of_toOption installed, read, named⟩

end ConfigFile

end MoveMachine
