import MoveMachine.Proofs.Loading

set_option autoImplicit false

namespace MoveMachine

namespace Memory

private theorem getElem?_cells {memory : Memory} {place : Address}
    (listed : place ∈ memory.cells) : memory.cells[place]? = some (memory.cell place) := by
  rw [cell, Std.ExtTreeMap.getElem?_eq_some_getElem listed, Option.getD_some]

theorem cells_eq {memory other : Memory}
    (listed : ∀ place, place ∈ memory.cells ↔ place ∈ other.cells)
    (content : ∀ place, memory.cell place = other.cell place) : memory.cells = other.cells := by
  apply Std.ExtTreeMap.ext_getElem?
  intro place
  by_cases member : place ∈ memory.cells
  · rw [getElem?_cells member, getElem?_cells ((listed place).1 member), content]
  · have missing : place ∉ other.cells := fun found => member ((listed place).2 found)
    rw [Std.ExtTreeMap.getElem?_eq_none member, Std.ExtTreeMap.getElem?_eq_none missing]

/-- A memory is its symbols, its clock, what it lists and what it holds. -/
theorem ext_cell {memory other : Memory} (symbols : memory.symbols = other.symbols)
    (clock : memory.clock = other.clock)
    (listed : ∀ place, place ∈ memory.cells ↔ place ∈ other.cells)
    (content : ∀ place, memory.cell place = other.cell place) : memory = other := by
  have cells := cells_eq listed content
  cases memory
  cases other
  simp_all

end Memory

def CellConfig.Touches (cell : CellConfig) (base place : Address) : Prop :=
  base = place ∧ (cell.readTrigger? ≠ none ∨ cell.onWrite ≠ none) ∨
    cell.literalAt base place ≠ none

namespace Config

theorem mem_cells_installTriggers (base place : Address) (cell : CellConfig) (memory : Memory) :
    place ∈ (installTriggers base cell memory).cells ↔
      place ∈ memory.cells ∨ base = place ∧ (cell.onRead ≠ none ∨ cell.onWrite ≠ none) := by
  unfold installTriggers
  cases cell.onRead <;> cases cell.onWrite <;>
    simp [Memory.setReadTrigger, Memory.addWriteTriggers, Memory.mem_cells_update]

theorem mem_cells_placeValue {base : Address} {cell : CellConfig} {before after : Memory}
    (done : placeValue base cell.value before = .ok after) (place : Address) :
    place ∈ after.cells ↔ place ∈ before.cells ∨
      base = place ∧ (cell.computed? ≠ none ∨ cell.literal? ≠ none) := by
  unfold CellConfig.literal? CellConfig.computed?
  match value : cell.value with
  | none =>
    rw [value] at done
    cases done
    simp
  | some (.computed trigger) =>
    rw [value] at done
    cases done
    simp [Memory.setReadTrigger, Memory.mem_cells_update]
  | some (.literal literal) =>
    rw [value, placeValue] at done
    cases resolved : literal.resolve before.symbols with
    | error error =>
      rw [resolved] at done
      cases done
    | ok word =>
      rw [resolved] at done
      cases done
      simp [Memory.poke, Memory.mem_cells_update]

theorem mem_cells_placeValues {base : Address} {placed : Nat} {values : List Literal}
    {before after : Memory} (done : placeValues base placed values before = .ok after)
    (place : Address) :
    place ∈ after.cells ↔
      place ∈ before.cells ∨ itemAt values (base.toNat + placed) place ≠ none := by
  induction values generalizing placed before with
  | nil =>
    cases done
    simp [itemAt]
  | cons value values ih =>
    obtain ⟨target, word, position, -, done⟩ := placeValues_cons_eq_ok done
    rw [ih done, Memory.poke, Memory.mem_cells_update, itemAt_cons, ← Nat.add_assoc, ← position]
    by_cases same : target = place
    · simp [same]
    · have apart : target.toNat ≠ place.toNat := fun equal => same (UInt64.toNat_inj.1 equal)
      simp [same, apart]

theorem mem_cells_applyCell {base : Address} {cell : CellConfig} {before after : Memory}
    (done : applyCell base cell before = .ok after) (place : Address) :
    place ∈ after.cells ↔ place ∈ before.cells ∨ cell.Touches base place := by
  rw [applyCell_eq_bind] at done
  obtain ⟨middle, valued, done⟩ := exists_of_bind_eq_ok done
  rw [mem_cells_placeValues done, mem_cells_placeValue valued, mem_cells_installTriggers,
    CellConfig.Touches, CellConfig.literalAt, CellConfig.readTrigger?, Nat.add_zero]
  by_cases same : base = place
  · simp only [same, true_and, if_true, ne_eq, Option.or_eq_none_iff]
    grind
  · simp [same]

theorem mem_cells_foldlM_applyCell {entries : List (Address × CellConfig)} {before after : Memory}
    (done : entries.foldlM (fun memory entry => applyCell entry.1 entry.2 memory) before =
      .ok after) (place : Address) :
    place ∈ after.cells ↔
      place ∈ before.cells ∨ ∃ entry ∈ entries, entry.2.Touches entry.1 place := by
  induction entries generalizing before with
  | nil =>
    cases done
    simp
  | cons entry entries ih =>
    rw [List.foldlM_cons] at done
    obtain ⟨middle, applied, done⟩ := exists_of_bind_eq_ok done
    simp only [ih done, mem_cells_applyCell applied, List.mem_cons, exists_eq_or_imp, or_assoc]

def Lists (config : Config) (place : Address) : Prop :=
  ∃ base cell, config.get? base = some cell ∧ cell.Touches base place

theorem mem_cells_load {config : Config} {before after : Memory}
    (loaded : config.load before = .ok after) (place : Address) :
    place ∈ after.cells ↔ place ∈ before.cells ∨ config.Lists place := by
  have start : (config.bindSymbols before).cells = before.cells := by rw [bindSymbols_eq]
  rw [mem_cells_foldlM_applyCell loaded, start]
  simp only [Lists, Prod.exists, mem_toList_iff]

end Config

end MoveMachine
