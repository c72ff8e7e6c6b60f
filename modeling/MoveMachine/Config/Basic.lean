import MoveMachine.Literal
import MoveMachine.Trigger

set_option autoImplicit false

namespace MoveMachine

inductive CellValue where
  /-- Set as the raw value. -/
  | literal (value : Literal)
  /-- Computed whenever the cell is read. -/
  | computed (trigger : ReadTrigger)
  deriving DecidableEq, Inhabited

inductive Block where
  | items (values : List Literal)
  /-- The values depend on the address at which the block starts. -/
  | generated (values : Address → List Literal)
  deriving Inhabited

def Block.valuesAt (base : Address) : Block → List Literal
  | .items values => values
  | .generated values => values base

/-- A block that counts up from its own address, with a given count and step. Words wrap. -/
def Block.progression (count : Nat) (step : Word) : Block :=
  .generated fun base =>
    (List.range count).map fun index => .number (base.toInt64 + Int64.ofNat index * step)

structure CellConfig where
  symbols : List String := []
  value : Option CellValue := none
  values : Option Block := none
  onRead : Option ReadTrigger := none
  /-- A list that is present takes the place of the triggers on the cell, even if empty. -/
  onWrite : Option (List WriteTrigger) := none
  deriving Inhabited

namespace CellConfig

def ofBlock (values : List Literal) : CellConfig := { values := some (.items values) }

/-- A cell with a value and nothing else: a block of one. -/
def ofLiteral (value : Literal) : CellConfig := ofBlock [value]

def isEmpty (cell : CellConfig) : Bool :=
  cell.symbols.isEmpty && cell.value.isNone && cell.values.isNone && cell.onRead.isNone &&
    cell.onWrite.isNone

end CellConfig

structure Config where
  cells : Sparse CellConfig := ∅
  deriving Inhabited

namespace Config

instance : EmptyCollection Config := ⟨{}⟩

def get? (config : Config) (address : Address) : Option CellConfig := config.cells[address]?

def insert (config : Config) (address : Address) (cell : CellConfig) : Config :=
  ⟨config.cells.insert address cell⟩

/-- The configuration with these descriptions; a later one of an address wins. -/
def ofList (entries : List (Address × CellConfig)) : Config :=
  ⟨Std.ExtTreeMap.ofList entries compare⟩

def toList (config : Config) : List (Address × CellConfig) := config.cells.toList

/-- One configuration with another laid over it, whose descriptions win. -/
def merge (config layer : Config) : Config := ⟨config.cells ∪ layer.cells⟩

def size (config : Config) : Nat := config.cells.size

def isEmpty (config : Config) : Bool := config.cells.isEmpty

theorem get?_merge (config layer : Config) (address : Address) :
    (config.merge layer).get? address = (layer.get? address).or (config.get? address) := by
  simp [merge, get?, Std.ExtTreeMap.getElem?_union]

theorem mem_toList_iff {config : Config} {address : Address} {cell : CellConfig} :
    (address, cell) ∈ config.toList ↔ config.get? address = some cell :=
  Std.ExtTreeMap.mem_toList_iff_getElem?_eq_some

end Config

end MoveMachine
