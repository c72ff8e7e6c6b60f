import MoveMachine.Proofs.Aliases
import MoveMachine.Proofs.Reachable

set_option autoImplicit false

namespace MoveMachine

/-- A cell as a snapshot restores it, with or without its triggers. -/
def Cell.snapshot (cell : Cell) (callbacks : Bool) : Cell where
  stored := cell.stored
  observed := cell.stored
  writtenAt := 0
  onRead := if callbacks then cell.onRead else none
  onWrite := if callbacks then cell.onWrite else []

namespace Config

theorem snapshot_of_isEmpty {memory : Memory} {callbacks : Bool} {address : Address}
    (empty : (cellOfMemory memory callbacks address).isEmpty = true) :
    memory.symbols.aliasesOf address = [] ∧
      (memory.cell address).snapshot callbacks = {} := by
  unfold cellOfMemory CellConfig.isEmpty at empty
  cases callbacks with
  | false =>
    simp only [Bool.false_eq_true, if_false, Memory.stored] at empty
    simp_all [Cell.snapshot]
  | true =>
    simp only [if_true, Memory.stored, Memory.readTrigger, Memory.writeTriggers] at empty
    cases triggers : (memory.cell address).onWrite with
    | nil => simp_all [Cell.snapshot]
    | cons trigger rest => simp_all

theorem isEmpty_of_not_mem_addresses {memory : Memory} {address : Address}
    (unlisted : address ∉ memory.addresses) (callbacks : Bool) :
    (cellOfMemory memory callbacks address).isEmpty = true := by
  rw [Memory.mem_addresses_iff, not_or] at unlisted
  obtain ⟨noCell, noSymbol⟩ := unlisted
  have cell := Memory.cell_of_not_mem noCell
  rw [SymbolTable.mem_byAddress_iff, Classical.not_not] at noSymbol
  cases callbacks <;>
    simp [cellOfMemory, CellConfig.isEmpty, Memory.stored, Memory.readTrigger,
      Memory.writeTriggers, cell, noSymbol]

private def descriptions (memory : Memory) (callbacks : Bool) : List (Address × CellConfig) :=
  memory.addresses.filterMap fun address =>
    let cell := cellOfMemory memory callbacks address
    if cell.isEmpty then none else some (address, cell)

private theorem mem_descriptions {memory : Memory} {callbacks : Bool} {address : Address}
    {cell : CellConfig} :
    (address, cell) ∈ descriptions memory callbacks ↔
      address ∈ memory.addresses ∧ cell = cellOfMemory memory callbacks address ∧
        ¬ cell.isEmpty := by
  unfold descriptions
  simp only [List.mem_filterMap]
  grind

private theorem descriptions_apart (memory : Memory) (callbacks : Bool) :
    (descriptions memory callbacks).Pairwise fun a b => ¬ compare a.1 b.1 = .eq := by
  unfold descriptions
  rw [List.pairwise_filterMap]
  refine memory.addresses_ascending.imp ?_
  intro a b below x hx y hy
  have apart : a ≠ b := by
    rintro rfl
    exact absurd below (UInt64.lt_irrefl a)
  grind

theorem get?_ofMemory (memory : Memory) (callbacks : Bool) (address : Address) :
    (ofMemory memory callbacks).get? address =
      if (cellOfMemory memory callbacks address).isEmpty then none
      else some (cellOfMemory memory callbacks address) := by
  change (ofList (descriptions memory callbacks)).get? address = _
  unfold get? ofList
  split
  · rename_i empty
    apply Std.ExtTreeMap.getElem?_ofList_of_contains_eq_false
    rw [Bool.eq_false_iff]
    intro contained
    obtain ⟨⟨place, cell⟩, listed, same⟩ := List.mem_map.1 (List.contains_iff_mem.1 contained)
    obtain ⟨-, rfl, nonempty⟩ := mem_descriptions.1 listed
    obtain rfl : place = address := same
    exact nonempty empty
  · rename_i nonempty
    apply Std.ExtTreeMap.getElem?_ofList_of_mem Std.ReflCmp.compare_self
      (descriptions_apart memory callbacks)
    refine mem_descriptions.2 ⟨?_, rfl, nonempty⟩
    apply Classical.byContradiction
    intro unlisted
    exact nonempty (isEmpty_of_not_mem_addresses unlisted callbacks)

private def described (memory : Memory) (callbacks : Bool) : List Address :=
  (ofMemory memory callbacks).toList.map (·.1)

private theorem nodup_described (memory : Memory) (callbacks : Bool) :
    (described memory callbacks).Nodup := by
  unfold described
  rw [List.nodup_iff_pairwise_ne, List.pairwise_map]
  refine Std.ExtTreeMap.distinct_keys_toList.imp ?_
  intro a b apart same
  exact apart (by simp [same])

private theorem mem_described {memory : Memory} {callbacks : Bool} {address : Address} :
    address ∈ described memory callbacks ↔
      (cellOfMemory memory callbacks address).isEmpty = false := by
  unfold described
  constructor
  · intro member
    obtain ⟨⟨place, cell⟩, listed, rfl⟩ := List.mem_map.1 member
    rw [mem_toList_iff, get?_ofMemory] at listed
    grind
  · intro nonempty
    refine List.mem_map.2 ⟨(address, cellOfMemory memory callbacks address), ?_, rfl⟩
    rw [mem_toList_iff, get?_ofMemory, nonempty]
    rfl

private theorem toList_ofMemory (memory : Memory) (callbacks : Bool) :
    (ofMemory memory callbacks).toList =
      (described memory callbacks).map fun address =>
        (address, cellOfMemory memory callbacks address) := by
  have own : ∀ entry ∈ (ofMemory memory callbacks).toList,
      entry = (entry.1, cellOfMemory memory callbacks entry.1) := by
    rintro ⟨address, cell⟩ listed
    rw [mem_toList_iff, get?_ofMemory] at listed
    grind
  calc (ofMemory memory callbacks).toList
      = (ofMemory memory callbacks).toList.map id := (List.map_id _).symm
    _ = (ofMemory memory callbacks).toList.map fun entry =>
          (entry.1, cellOfMemory memory callbacks entry.1) := List.map_congr_left own
    _ = _ := by rw [described, List.map_map]; rfl

section CellOfMemory

variable (memory : Memory) (callbacks : Bool) (address : Address)

theorem symbols_cellOfMemory :
    (cellOfMemory memory callbacks address).symbols = memory.symbols.aliasesOf address := by
  cases callbacks <;> rfl

theorem value_cellOfMemory :
    (cellOfMemory memory callbacks address).value =
      (memory.stored address).map fun word => .literal (.number word) := by
  cases callbacks <;> rfl

theorem values_cellOfMemory : (cellOfMemory memory callbacks address).values = none := by
  cases callbacks <;> rfl

theorem onRead_cellOfMemory :
    (cellOfMemory memory callbacks address).onRead =
      if callbacks then memory.readTrigger address else none := by
  cases callbacks <;> rfl

theorem onWrite_cellOfMemory :
    (cellOfMemory memory callbacks address).onWrite.getD [] =
      if callbacks then memory.writeTriggers address else [] := by
  cases callbacks with
  | false => rfl
  | true =>
    simp only [cellOfMemory, if_true]
    split
    · rename_i none_left
      exact none_left.symm
    · rfl

end CellOfMemory

theorem foldl_bind (names : List String) (address : Address) (memory : Memory) :
    names.foldl (fun memory name => memory.bind name address) memory =
      { memory with symbols := memory.symbols.bindAll names address } := by
  induction names generalizing memory with
  | nil => rfl
  | cons name names ih =>
    rw [List.foldl_cons, ih]
    rfl

private theorem bindSymbols_ofMemory (memory start : Memory) (callbacks : Bool) :
    (ofMemory memory callbacks).bindSymbols start =
      { start with
        symbols := memory.symbols.takeOver (described memory callbacks) start.symbols } := by
  unfold bindSymbols
  rw [toList_ofMemory]
  generalize described memory callbacks = places
  induction places generalizing start with
  | nil => rfl
  | cons place places ih =>
    rw [List.map_cons, List.foldl_cons, foldl_bind, ih, symbols_cellOfMemory]
    rfl

theorem cell_installTriggers (address place : Address) (cell : CellConfig) (memory : Memory) :
    (installTriggers address cell memory).cell place =
      if address = place then
        { memory.cell address with
          onRead := cell.onRead.or (memory.cell address).onRead
          onWrite := cell.onWrite.getD (memory.cell address).onWrite }
      else memory.cell place := by
  unfold installTriggers
  by_cases same : address = place
  · subst same
    cases cell.onRead <;> cases cell.onWrite <;> simp
  · cases cell.onRead <;> cases cell.onWrite <;> simp [same]

theorem symbols_installTriggers (address : Address) (cell : CellConfig) (memory : Memory) :
    (installTriggers address cell memory).symbols = memory.symbols := by
  unfold installTriggers
  cases cell.onRead <;> cases cell.onWrite <;> rfl

theorem clock_installTriggers (address : Address) (cell : CellConfig) (memory : Memory) :
    (installTriggers address cell memory).clock = memory.clock := by
  unfold installTriggers
  cases cell.onRead <;> cases cell.onWrite <;> rfl

private theorem placeValue_stored (address : Address) (stored : Option Word) (memory : Memory) :
    ∃ after,
      placeValue address (stored.map fun word => .literal (.number word)) memory = .ok after ∧
      after.symbols = memory.symbols ∧ after.clock = memory.clock ∧
      ∀ place, after.cell place =
        if address = place then
          { memory.cell address with
            stored := stored.or (memory.cell address).stored
            observed := stored.or (memory.cell address).observed }
        else memory.cell place := by
  cases stored with
  | none =>
    refine ⟨memory, rfl, rfl, rfl, fun place => ?_⟩
    by_cases same : address = place
    · subst same
      simp
    · simp [same]
  | some word =>
    refine ⟨memory.poke address word, rfl, rfl, rfl, fun place => ?_⟩
    rw [Memory.cell_poke]
    rfl

private theorem applyCell_cellOfMemory (memory start : Memory) (callbacks : Bool)
    (address : Address) (new : start.cell address = {}) :
    ∃ after, applyCell address (cellOfMemory memory callbacks address) start = .ok after ∧
      after.symbols = start.symbols ∧ after.clock = start.clock ∧
      ∀ place, after.cell place =
        if address = place then (memory.cell address).snapshot callbacks
        else start.cell place := by
  let cell := cellOfMemory memory callbacks address
  have value : cell.value = _ := value_cellOfMemory memory callbacks address
  have values : cell.values = none := values_cellOfMemory memory callbacks address
  have onRead : cell.onRead = _ := onRead_cellOfMemory memory callbacks address
  have onWrite : cell.onWrite.getD [] = _ := onWrite_cellOfMemory memory callbacks address
  obtain ⟨after, placed, symbols, clock, cells⟩ :=
    placeValue_stored address (memory.stored address) (installTriggers address cell start)
  refine ⟨after, ?_, ?_, ?_, ?_⟩
  · change applyCell address cell start = _
    unfold applyCell
    rw [value, placed, values]
    rfl
  · rw [symbols, symbols_installTriggers]
  · rw [clock, clock_installTriggers]
  · intro place
    rw [cells]
    simp only [cell_installTriggers, new]
    split
    · simp only [if_true, onRead, onWrite, Cell.snapshot]
      simp [Memory.stored, Memory.readTrigger, Memory.writeTriggers]
    · rfl

private theorem foldlM_cellOfMemory (memory start : Memory) (callbacks : Bool)
    (places : List Address) (distinct : places.Nodup)
    (new : ∀ place ∈ places, start.cell place = {}) :
    ∃ after,
      (places.map fun place => (place, cellOfMemory memory callbacks place)).foldlM
        (fun memory entry => applyCell entry.1 entry.2 memory) start = .ok after ∧
      after.symbols = start.symbols ∧ after.clock = start.clock ∧
      ∀ place, after.cell place =
        if place ∈ places then (memory.cell place).snapshot callbacks
        else start.cell place := by
  induction places generalizing start with
  | nil => exact ⟨start, rfl, rfl, rfl, fun place => by simp⟩
  | cons first places ih =>
    obtain ⟨other, distinct⟩ := List.nodup_cons.1 distinct
    obtain ⟨middle, applied, symbols, clock, cells⟩ :=
      applyCell_cellOfMemory memory start callbacks first (new first List.mem_cons_self)
    have next : ∀ place ∈ places, middle.cell place = {} := by
      intro place member
      have apart : first ≠ place := by
        rintro rfl
        exact other member
      rw [cells, if_neg apart]
      exact new place (List.mem_cons_of_mem _ member)
    obtain ⟨after, folded, symbols', clock', cells'⟩ := ih middle distinct next
    refine ⟨after, ?_, symbols'.trans symbols, clock'.trans clock, ?_⟩
    · rw [List.map_cons, List.foldlM_cons, applied]
      exact folded
    · intro place
      rw [cells', cells]
      grind

/--
The description of a memory loads into an empty one, without fail, and restores every symbol
with its place among the aliases, and every cell.
-/
theorem load_ofMemory (memory : Memory) (callbacks : Bool) :
    ∃ restored, (ofMemory memory callbacks).load {} = .ok restored ∧
      restored.symbols = memory.symbols ∧ restored.clock = 0 ∧
      ∀ address, restored.cell address = (memory.cell address).snapshot callbacks := by
  have complete : ∀ address, memory.symbols.aliasesOf address ≠ [] →
      address ∈ described memory callbacks := by
    intro address named
    rw [mem_described, Bool.eq_false_iff]
    intro empty
    exact named (snapshot_of_isEmpty empty).1
  -- No alias is lost with the cells about which there is nothing to say.
  have table : memory.symbols.takeOver (described memory callbacks) ∅ = memory.symbols :=
    SymbolTable.takeOver_eq (nodup_described memory callbacks) complete
  obtain ⟨restored, loaded, symbols, clock, cells⟩ :=
    foldlM_cellOfMemory memory { ({} : Memory) with symbols := memory.symbols } callbacks
      (described memory callbacks) (nodup_described memory callbacks)
      (fun place _ => Memory.cell_empty place)
  refine ⟨restored, ?_, symbols, clock, ?_⟩
  · unfold load
    rw [bindSymbols_ofMemory, toList_ofMemory]
    change List.foldlM _ { ({} : Memory) with
      symbols := memory.symbols.takeOver (described memory callbacks) ∅ } _ = _
    rw [table]
    exact loaded
  · intro address
    rw [cells]
    split
    · rfl
    · rename_i undescribed
      rw [mem_described, Bool.not_eq_false] at undescribed
      rw [(snapshot_of_isEmpty undescribed).2]
      exact Memory.cell_empty address

end Config

end MoveMachine
