import MoveMachine.ConfigFile.Basic
import MoveMachine.Json.Parser
import MoveMachine.Json.Printer

set_option autoImplicit false

namespace MoveMachine

namespace WrittenLiteral

def ofJson? : Json → Option WrittenLiteral
  | .integer value => (Word.ofInt? value).map .number
  | .text spelling => some (.text spelling)
  | _ => none

def toJson : WrittenLiteral → Json
  | .number value => .integer value.toInt
  | .text spelling => .text spelling

end WrittenLiteral

namespace OneOrMany

variable {α : Type}

def ofJson? (item? : Json → Option α) (json : Json) : Option (OneOrMany α) :=
  match item? json, json with
  | some item, _ => some (.one item)
  | none, .array items => (items.mapM item?).map .many
  | none, _ => none

def toJson (item : α → Json) : OneOrMany α → Json
  | .one single => item single
  | .many items => .array (items.map item)

end OneOrMany

namespace WrittenCell

def string? : Json → Option String
  | .text value => some value
  | _ => none

/-- Reads what may be missing: null stands for nothing. -/
def optional? {α : Type} (item? : Json → Option α) : Json → Option (Option α)
  | .null => some none
  | json => (item? json).map some

def fields : List String := ["name", "symbol", "symbols", "value", "values", "onread", "onwrite"]

def ofFields? (field : String → Json) : Option WrittenCell := do
  return {
    name := ← optional? string? (field "name")
    symbol := ← optional? string? (field "symbol")
    symbols := ← optional? (OneOrMany.ofJson? string?) (field "symbols")
    value := ← optional? WrittenLiteral.ofJson? (field "value")
    values := ← optional? (OneOrMany.ofJson? WrittenLiteral.ofJson?) (field "values")
    onRead := ← optional? string? (field "onread")
    onWrite := ← optional? (OneOrMany.ofJson? string?) (field "onwrite") }

def lookUp (members : List (String × Json)) (field : String) : Json :=
  (members.lookup field).getD .null

/-- Reads a cell from an object of known fields without repetition, or from a list of values. -/
def ofJson? : Json → Option WrittenCell
  | .object members => do
    let named ← members.mapM fun member => do
      return (String.ofList (← Json.unescape member.1.toList), member.2)
    let names := named.map (·.1)
    if names.all (fields.contains ·) ∧ names.Nodup then ofFields? (lookUp named) else none
  | .array items =>
    if items.length ≤ fields.length then ofFields? (lookUp (fields.zip items)) else none
  | _ => none

def toJson (cell : WrittenCell) : Json :=
  .object <|
    [("name", cell.name.map .text), ("symbol", cell.symbol.map .text),
      ("symbols", cell.symbols.map (OneOrMany.toJson .text)),
      ("value", cell.value.map WrittenLiteral.toJson),
      ("values", cell.values.map (OneOrMany.toJson WrittenLiteral.toJson)),
      ("onread", cell.onRead.map .text),
      ("onwrite", cell.onWrite.map (OneOrMany.toJson .text))].filterMap fun field =>
        field.2.map fun json => (field.1, json)

end WrittenCell

namespace Entry

def block? : Json → Option Entry
  | .array items => (items.mapM WrittenLiteral.ofJson?).map .block
  | _ => none

/-- Reads an entry: as a literal, as a block or as a cell, in this order. -/
def ofJson? (json : Json) : Option Entry :=
  ((WrittenLiteral.ofJson? json).map .literal).or <| (block? json).or <|
    (WrittenCell.ofJson? json).map .cell

def toJson : Entry → Json
  | .literal value => value.toJson
  | .block values => .array (values.map WrittenLiteral.toJson)
  | .cell content => content.toJson

end Entry

namespace ConfigFile

/-- Reads the key of an entry: an address in its only spelling. -/
def address? (key : String) : Option Address := do
  let address ← Decimal.address? key.toList
  if Decimal.ofAddress address = key then some address else none

/-- Reads a file. Of several entries of an address the last counts, but all must be entries. -/
def ofJson? : Json → Option ConfigFile
  | .object members => do
    let entries ← members.mapM fun member => do
      return (← address? member.1, ← Entry.ofJson? member.2)
    return ofList entries
  | _ => none

def toJson (file : ConfigFile) : Json :=
  .object (file.toList.map fun entry => (Decimal.ofAddress entry.1, entry.2.toJson))

def parse (text : String) : Except ConfigError ConfigFile :=
  match (Json.parse? text).bind ofJson? with
  | some file => .ok file
  | none => .error .unparsable

def render (file : ConfigFile) : String := file.toJson.render

end ConfigFile

end MoveMachine
