import MoveMachine.Trigger
import MoveMachine.SymbolTable

/-!
Memory: cells, symbols and a write clock. This module holds what an operation does to memory
as data; `Access` adds the triggers that reads and writes set off.

A cell that was never touched is the default one, so the view of a memory is `cell`, and
`cell_update` says what every change of a cell does to it.
-/

set_option autoImplicit false

namespace MoveMachine

structure Cell where
  /-- The raw value, set by writes and by configuration. -/
  stored : Option Word := none
  /-- The last value seen through the cell, from a write or from its read trigger. -/
  observed : Option Word := none
  /-- The write clock at the last write, 0 before the first. A number without a bound. -/
  writtenAt : Nat := 0
  onRead : Option ReadTrigger := none
  onWrite : List WriteTrigger := []
  deriving DecidableEq, Inhabited

def Cell.isTriggered (cell : Cell) : Bool := cell.onRead.isSome || !cell.onWrite.isEmpty

structure Memory where
  cells : Sparse Cell := ∅
  symbols : SymbolTable := ∅
  /--
  The number of writes so far. It has no bound, where a clock of 64 bits would wrap: 2^64 writes
  are out of reach.
  -/
  clock : Nat := 0
  deriving Inhabited

namespace Memory

def cell (memory : Memory) (address : Address) : Cell := memory.cells[address]?.getD {}

/-- Changes one cell, which from then on is listed. -/
def update (memory : Memory) (address : Address) (change : Cell → Cell) : Memory :=
  { memory with cells := memory.cells.alter address fun cell? => some (change (cell?.getD {})) }

/-- The address that a reference means. A bound symbol wins over the digits of its name. -/
def resolve (memory : Memory) : CellRef → Except MemoryError Address
  | .address address => .ok address
  | .name name =>
    match (memory.symbols.resolve name).or (Decimal.address? name.toList) with
    | some address => .ok address
    | none => .error (.unknownSymbol name)

def stored (memory : Memory) (address : Address) : Option Word := (memory.cell address).stored

def peek (memory : Memory) (address : Address) : Word := (memory.stored address).getD 0

def observed (memory : Memory) (address : Address) : Option Word := (memory.cell address).observed

def readTrigger (memory : Memory) (address : Address) : Option ReadTrigger :=
  (memory.cell address).onRead

def writeTriggers (memory : Memory) (address : Address) : List WriteTrigger :=
  (memory.cell address).onWrite

/-- Sets a raw value without running triggers and without moving the clock. -/
def poke (memory : Memory) (address : Address) (value : Word) : Memory :=
  memory.update address fun cell => { cell with stored := some value, observed := some value }

def observe (memory : Memory) (address : Address) (value : Word) : Memory :=
  memory.update address fun cell => { cell with observed := some value }

/-- Moves the clock on, sets a value and stamps the cell with the new time. -/
def record (memory : Memory) (address : Address) (value : Word) : Memory :=
  { memory with clock := memory.clock + 1 }.update address fun cell =>
    { cell with stored := some value, observed := some value, writtenAt := memory.clock + 1 }

def bind (memory : Memory) (name : String) (address : Address) : Memory :=
  { memory with symbols := memory.symbols.bind name address }

def setReadTrigger (memory : Memory) (address : Address) (trigger : ReadTrigger) : Memory :=
  memory.update address fun cell => { cell with onRead := some trigger }

/-- Adds write triggers after those of a cell, or in place of them. -/
def addWriteTriggers (memory : Memory) (address : Address) (triggers : List WriteTrigger)
    (overwrite : Bool) : Memory :=
  memory.update address fun cell =>
    { cell with onWrite := if overwrite then triggers else cell.onWrite ++ triggers }

def writtenSince (memory : Memory) (address : Address) (mark : Nat) : Bool :=
  mark < (memory.cell address).writtenAt

/-- Every listed cell and every address with a symbol, ascending. -/
def addresses (memory : Memory) : List Address :=
  (memory.cells.map (fun _ _ => ()) ∪ memory.symbols.byAddress.map (fun _ _ => ())).keys

def describe (memory : Memory) : String :=
  let triggered := memory.cells.toList.countP fun entry => entry.2.isTriggered
  Text.Inline.record "Memory"
    [("cells", toString memory.cells.size), ("triggered_cells", toString triggered),
      ("symbols", toString memory.symbols.size)]

@[simp] theorem cell_update (memory : Memory) (address other : Address) (change : Cell → Cell) :
    (memory.update address change).cell other =
      if address = other then change (memory.cell address) else memory.cell other := by
  unfold update cell
  simp only [Std.ExtTreeMap.getElem?_alter]
  by_cases same : address = other
  · subst same
    simp
  · simp [same]

theorem cell_of_not_mem {memory : Memory} {address : Address} (unlisted : address ∉ memory.cells) :
    memory.cell address = {} := by
  simp [cell, Std.ExtTreeMap.getElem?_eq_none unlisted]

theorem mem_cells_update (memory : Memory) (address place : Address) (change : Cell → Cell) :
    place ∈ (memory.update address change).cells ↔ place ∈ memory.cells ∨ address = place := by
  unfold update
  rw [Std.ExtTreeMap.mem_alter]
  by_cases same : address = place
  · subst same
    simp
  · simp [same]

theorem forall_cell_update {memory : Memory} {address : Address} {change : Cell → Cell}
    {P : Address → Cell → Prop} (kept : ∀ place, P place (memory.cell place))
    (changed : P address (change (memory.cell address))) (place : Address) :
    P place ((memory.update address change).cell place) := by
  rw [cell_update]
  split
  · rename_i same
    exact same ▸ changed
  · exact kept place

@[simp] theorem clock_update (memory : Memory) (address : Address) (change : Cell → Cell) :
    (memory.update address change).clock = memory.clock := rfl

@[simp] theorem cell_poke (memory : Memory) (address other : Address) (value : Word) :
    (memory.poke address value).cell other =
      if address = other then
        { memory.cell address with stored := some value, observed := some value }
      else memory.cell other :=
  cell_update ..

@[simp] theorem cell_observe (memory : Memory) (address other : Address) (value : Word) :
    (memory.observe address value).cell other =
      if address = other then { memory.cell address with observed := some value }
      else memory.cell other :=
  cell_update ..

@[simp] theorem cell_record (memory : Memory) (address other : Address) (value : Word) :
    (memory.record address value).cell other =
      if address = other then
        { memory.cell address with
          stored := some value, observed := some value, writtenAt := memory.clock + 1 }
      else memory.cell other :=
  cell_update ..

@[simp] theorem cell_setReadTrigger (memory : Memory) (address other : Address)
    (trigger : ReadTrigger) :
    (memory.setReadTrigger address trigger).cell other =
      if address = other then { memory.cell address with onRead := some trigger }
      else memory.cell other :=
  cell_update ..

@[simp] theorem cell_addWriteTriggers (memory : Memory) (address other : Address)
    (triggers : List WriteTrigger) (overwrite : Bool) :
    (memory.addWriteTriggers address triggers overwrite).cell other =
      if address = other then
        { memory.cell address with
          onWrite := if overwrite then triggers else (memory.cell address).onWrite ++ triggers }
      else memory.cell other :=
  cell_update ..

@[simp] theorem cell_empty (address : Address) : ({} : Memory).cell address = {} := by
  simp [cell]

@[simp] theorem clock_record (memory : Memory) (address : Address) (value : Word) :
    (memory.record address value).clock = memory.clock + 1 := rfl

@[simp] theorem symbols_poke (memory : Memory) (address : Address) (value : Word) :
    (memory.poke address value).symbols = memory.symbols := rfl

@[simp] theorem symbols_bind (memory : Memory) (name : String) (address : Address) :
    (memory.bind name address).symbols = memory.symbols.bind name address := rfl

@[simp] theorem symbols_addWriteTriggers (memory : Memory) (address : Address)
    (triggers : List WriteTrigger) (overwrite : Bool) :
    (memory.addWriteTriggers address triggers overwrite).symbols = memory.symbols := rfl

theorem addresses_ascending (memory : Memory) : memory.addresses.Pairwise (· < ·) := by
  have ordered := Std.ExtTreeMap.ordered_keys
    (t := memory.cells.map (fun _ _ => ()) ∪ memory.symbols.byAddress.map (fun _ _ => ()))
  exact ordered.imp Std.compare_eq_lt.1

theorem mem_addresses_iff {memory : Memory} {address : Address} :
    address ∈ memory.addresses ↔
      address ∈ memory.cells ∨ address ∈ memory.symbols.byAddress := by
  simp [addresses]

end Memory

end MoveMachine
