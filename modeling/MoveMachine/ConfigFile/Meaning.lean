import MoveMachine.Config.Basic
import MoveMachine.ConfigFile.Basic
import MoveMachine.Device.Registry

set_option autoImplicit false

namespace MoveMachine

namespace WrittenLiteral

def toLiteral : WrittenLiteral → Except ConfigError Literal
  | .number value => .ok (.number value)
  | .text spelling => Literal.parse spelling

/-- How a literal is written. A digit is written by its code point: its text form is a number. -/
def ofLiteral : Literal → WrittenLiteral
  | .number value => .number value
  | .char value =>
    if value.isDigit then .number (Word.ofChar value) else .text (String.singleton value)
  | .symbolRef symbol => .text ("@" ++ symbol)

end WrittenLiteral

namespace WrittenCell

def toCell (registry : Registry) (cell : WrittenCell) : Except ConfigError CellConfig := do
  let value ← cell.value.mapM WrittenLiteral.toLiteral
  let values ← cell.values.mapM fun values => values.toList.mapM WrittenLiteral.toLiteral
  let onRead ← cell.onRead.mapM registry.read
  let onWrite ← cell.onWrite.mapM fun names => names.toList.mapM registry.write
  return {
    symbols := cell.name.toList ++ cell.symbol.toList ++ (cell.symbols.map (·.toList)).getD []
    value := value.map .literal
    values := values.map .items
    onRead
    onWrite }

/-- True of a cell that could be written as a block, if it has values. -/
def isBlock (cell : WrittenCell) : Bool :=
  cell.name.isNone && cell.symbol.isNone && cell.symbols.isNone && cell.value.isNone &&
    cell.onRead.isNone && cell.onWrite.isNone

end WrittenCell

namespace Entry

def toCell (registry : Registry) : Entry → Except ConfigError CellConfig
  | .literal value => (value.toLiteral).map CellConfig.ofLiteral
  | .block values => (values.mapM WrittenLiteral.toLiteral).map CellConfig.ofBlock
  | .cell content => content.toCell registry

def labelAt (place : Address) : Option String → Except ConfigError String
  | some label => .ok label
  | none => .error (.unlabeledTrigger place)

/-- The device that a description computes a cell with. A read trigger of its own wins. -/
def readLabel? (place : Address) (cell : CellConfig) :
    Except ConfigError (Option String) := do
  let computed ← match cell.value with
    | some (.computed trigger) => (labelAt place trigger.label).map some
    | _ => pure none
  let own ← cell.onRead.mapM fun trigger => labelAt place trigger.label
  return own.or computed

def writeLabels? (place : Address) (cell : CellConfig) :
    Except ConfigError (Option (List String)) :=
  cell.onWrite.mapM fun triggers => triggers.mapM fun trigger => labelAt place trigger.label

def writeSymbols (cell : WrittenCell) : List String → WrittenCell
  | [] => cell
  | [symbol] => { cell with symbol }
  | symbols => { cell with symbols := some (.many symbols) }

/-- The entry of a description whose triggers go by these names. Values alone make a block. -/
def assemble (place : Address) (cell : CellConfig) (onRead : Option String)
    (onWrite : Option (List String)) : Entry :=
  let value := match cell.value with
    | some (.literal value) => some (WrittenLiteral.ofLiteral value)
    | _ => none
  let written := writeSymbols { value, onRead, onWrite := onWrite.map .ofList } cell.symbols
  match cell.values with
  | none => .cell written
  | some run =>
    let values := (run.valuesAt place).map WrittenLiteral.ofLiteral
    if written.isBlock then .block values
    else .cell { written with values := some (.many values) }

def ofCell (callbacks : Bool) (place : Address) (cell : CellConfig) : Except ConfigError Entry :=
  if callbacks then do
    return assemble place cell (← readLabel? place cell) (← writeLabels? place cell)
  else .ok (assemble place cell none none)

end Entry

namespace ConfigFile

def toConfig (registry : Registry) (file : ConfigFile) : Except ConfigError Config := do
  let cells ← file.toList.mapM fun entry => do
    return (entry.1, ← entry.2.toCell registry)
  return .ofList cells

def ofConfig (config : Config) (callbacks : Bool) : Except ConfigError ConfigFile := do
  let entries ← config.toList.mapM fun entry => do
    return (entry.1, ← Entry.ofCell callbacks entry.1 entry.2)
  return .ofList entries

end ConfigFile

end MoveMachine
