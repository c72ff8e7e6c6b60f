import MoveMachine.Proofs.Observation

/-!
Which addresses a memory lists. Something is at an address if it holds a value, if a trigger is on
it, or if a symbol belongs to it, and every such address is listed. A cell is listed from its
first change on, and every change leaves something in the cell but one: the installation of an
empty list of write triggers, which takes away what was installed before and puts nothing in its
place. So an address at which nothing is can be listed after such an installation, and in no other
way; its cell is then like one that was never touched.
-/

set_option autoImplicit false

namespace MoveMachine

def Cell.Filled (cell : Cell) : Prop :=
  cell.stored ≠ none ∨ cell.onRead ≠ none ∨ cell.onWrite ≠ []

theorem Cell.Coherent.eq_empty {cell : Cell} (coherent : cell.Coherent) (empty : ¬ cell.Filled) :
    cell = {} := by
  simp only [Filled, not_or, Classical.not_not] at empty
  obtain ⟨stored, onRead, onWrite⟩ := empty
  have observed := (coherent.observed onRead).trans stored
  have writtenAt := coherent.writtenAt stored
  cases cell
  simp_all

namespace Memory

/-- Something is at an address: a value, a read trigger, a write trigger or a symbol. -/
def Occupied (memory : Memory) (address : Address) : Prop :=
  memory.stored address ≠ none ∨ memory.readTrigger address ≠ none ∨
    memory.writeTriggers address ≠ [] ∨ memory.symbols.aliasesOf address ≠ []

theorem occupied_iff {memory : Memory} {address : Address} :
    memory.Occupied address ↔
      (memory.cell address).Filled ∨ memory.symbols.aliasesOf address ≠ [] := by
  simp only [Occupied, Cell.Filled, or_assoc]
  rfl

theorem Occupied.listed {memory : Memory} {address : Address} (occupied : memory.Occupied address) :
    address ∈ memory.addresses := by
  rw [mem_addresses_iff, SymbolTable.mem_byAddress_iff]
  refine (occupied_iff.1 occupied).imp_left fun filled => ?_
  apply Classical.byContradiction
  intro unlisted
  rw [cell_of_not_mem unlisted] at filled
  simp [Cell.Filled] at filled

/-- Every change that fits fills the cell that it lists, if no empty list is installed. -/
theorem Change.filled {memory : Memory}
    (filled : ∀ place ∈ memory.cells, (memory.cell place).Filled) (change : Change)
    (fits : change.Fits (· ≠ []) memory) (place : Address)
    (listed : place ∈ (change.apply memory).cells) : ((change.apply memory).cell place).Filled := by
  have updated : ∀ {before : Memory} {address : Address} {change : Cell → Cell},
      (∀ place ∈ before.cells, (before.cell place).Filled) →
      (change (before.cell address)).Filled →
      place ∈ (before.update address change).cells →
      ((before.update address change).cell place).Filled := by
    intro before address change filled changed listed
    rw [cell_update]
    split
    · exact changed
    · rename_i other
      exact filled place (((mem_cells_update ..).1 listed).resolve_right other)
  cases change with
  | poke address value => exact updated filled (.inl nofun) listed
  | observe address value => exact updated filled (.inr (.inl fits)) listed
  | record address value =>
    have ticked : ∀ place ∈ ({ memory with clock := memory.clock + 1 } : Memory).cells,
        (({ memory with clock := memory.clock + 1 } : Memory).cell place).Filled := filled
    exact updated ticked (.inl (Option.some_ne_none value)) listed
  | bind name address => exact filled place listed
  | setReadTrigger address trigger => exact updated filled (.inr (.inl nofun)) listed
  | addWriteTriggers address triggers overwrite =>
    refine updated filled (.inr (.inr ?_)) listed
    simp only [ne_eq]
    split
    · exact fits
    · exact List.append_ne_nil_of_right_ne_nil _ fits

theorem Evolves.filled {memory : Memory} (evolves : Evolves (· ≠ []) {} memory) :
    ∀ place ∈ memory.cells, (memory.cell place).Filled := by
  refine evolves.keeps (P := fun memory => ∀ place ∈ memory.cells, (memory.cell place).Filled) ?_ ?_
  · intro memory change fits filled place listed
    exact change.filled filled fits place listed
  · intro place listed
    exact absurd listed Std.ExtTreeMap.not_mem_empty

end Memory

/--
An empty list that is installed lists its address. Afterwards something is there only if more was
there than the write triggers that gave way to the list.
-/
theorem Memory.addWriteTriggers_nil (memory : Memory) (address : Address) (overwrite : Bool) :
    address ∈ (memory.addWriteTriggers address [] overwrite).addresses ∧
      ((memory.addWriteTriggers address [] overwrite).Occupied address ↔
        memory.stored address ≠ none ∨ memory.readTrigger address ≠ none ∨
          overwrite = false ∧ memory.writeTriggers address ≠ [] ∨
          memory.symbols.aliasesOf address ≠ []) := by
  constructor
  · rw [mem_addresses_iff, addWriteTriggers, mem_cells_update]
    exact .inl (.inr rfl)
  · simp only [Occupied, stored, readTrigger, writeTriggers, cell_addWriteTriggers,
      symbols_addWriteTriggers, if_pos]
    cases overwrite <;> simp

/--
The addresses of a memory that can be reached are listed in ascending order: those at which
something is, and those whose cell is listed though it is like one that was never touched. There
is no such cell if no empty list of write triggers was ever installed, so that just the addresses
are listed at which something is. An empty list always lists its address, though nothing may be
there but the write triggers that it takes away.
-/
theorem Machine.Reachable.lists_occupied {machine : Machine} (reachable : machine.Reachable) :
    machine.memory.addresses.Pairwise (· < ·) ∧
    (∀ address, address ∈ machine.memory.addresses ↔
      machine.memory.Occupied address ∨
        address ∈ machine.memory.cells ∧ machine.memory.cell address = {}) ∧
    (machine.ReachableInstalling (· ≠ []) →
      ∀ address, address ∈ machine.memory.addresses ↔ machine.memory.Occupied address) ∧
    ∀ address overwrite,
      address ∈ (machine.memory.addWriteTriggers address [] overwrite).addresses ∧
      ((machine.memory.addWriteTriggers address [] overwrite).Occupied address ↔
        machine.memory.stored address ≠ none ∨ machine.memory.readTrigger address ≠ none ∨
          overwrite = false ∧ machine.memory.writeTriggers address ≠ [] ∨
          machine.memory.symbols.aliasesOf address ≠ []) := by
  refine ⟨machine.memory.addresses_ascending, fun address => ⟨fun listed => ?_, ?_⟩,
    fun filling address => ⟨fun listed => ?_, Memory.Occupied.listed⟩,
    machine.memory.addWriteTriggers_nil⟩
  · rw [Memory.mem_addresses_iff, SymbolTable.mem_byAddress_iff] at listed
    by_cases occupied : machine.memory.Occupied address
    · exact .inl occupied
    · have vacant := fun there => occupied (Memory.occupied_iff.2 there)
      have coherent := reachable.installing.evolves.coherent address
      have blank := coherent.eq_empty fun filled => vacant (.inl filled)
      exact .inr ⟨listed.resolve_right fun named => vacant (.inr named), blank⟩
  · rintro (occupied | ⟨listed, -⟩)
    · exact occupied.listed
    · exact Memory.mem_addresses_iff.2 (.inl listed)
  · rw [Memory.mem_addresses_iff, SymbolTable.mem_byAddress_iff] at listed
    exact Memory.occupied_iff.2 (listed.imp_left (filling.evolves.filled address))

/--
A name has moved from 7 to 8, and a trigger of the cell 6 has put another on 9 and failed. Listed
are 6, 8 and 9. An empty list then takes the triggers of 9 away, and 9 stays listed.
-/
theorem Machine.Reachable.lists_occupied_moved :
    let memory := ((((({} : Memory).bind "x" 7).bind "x" 8).addWriteTriggers 6 [⟨none, 0⟩]
      false).record 6 1).addWriteTriggers 9 [⟨none, 0⟩] true
    let further := memory.addWriteTriggers 9 [] true
    memory.addresses = [6, 8, 9] ∧ (∀ address, address ∈ [6, 8, 9] ↔ memory.Occupied address) ∧
      9 ∈ further.addresses ∧ ¬ further.Occupied 9 := by
  intro memory further
  let wiring : Wiring := { writes := #[fun _ =>
    .onWrite (.address 9) [⟨none, 0⟩] true fun _ => .fail (.device "stop")] }
  have respects : wiring.Respects (.installing (· ≠ [])) := by
    apply Wiring.respects_of_mem
    · intro script listed
      cases Array.not_mem_empty script listed
    · intro script listed value
      obtain rfl := Array.mem_singleton.1 listed
      exact ⟨fun _ => List.cons_ne_nil _ _, fun _ => True.intro⟩
  have reached : Machine.ReachableInstalling (· ≠ []) { memory } :=
    (ReachableInstalling.start 0).perform wiring 0 (.bind "x" 7) {} respects True.intro rfl
      |>.perform wiring 0 (.bind "x" 8) {} respects True.intro rfl
      |>.perform wiring 0 (.installWrites (.address 6) [⟨none, 0⟩] false) {} respects
        (fun _ => List.cons_ne_nil _ _) rfl
      |>.perform wiring 1 (.write (.address 6) 1) {} respects True.intro rfl
  have listed : memory.addresses = [6, 8, 9] := by decide
  obtain ⟨-, -, exactly, emptied⟩ := lists_occupied reached.reachable
  obtain ⟨further, taken⟩ := emptied 9 true
  refine ⟨listed, fun address => ?_, further, fun occupied => ?_⟩
  · rw [← listed]
    exact exactly reached address
  · have left := taken.1 occupied
    revert left
    decide

/-- The empty list is all that was ever installed at 5, and 5 is listed. -/
theorem Machine.Reachable.lists_vacant :
    ∃ machine : Machine, machine.Reachable ∧ 5 ∈ machine.memory.addresses ∧
      ¬ machine.memory.Occupied 5 := by
  refine ⟨_, (Machine.Reachable.start 0).addWriteTriggers 5 [] false, by decide, ?_⟩
  rw [Memory.Occupied]
  decide

end MoveMachine
