import MoveMachine.Literal

set_option autoImplicit false

namespace MoveMachine

/-- A literal as a file writes it: as a number or in text form. -/
inductive WrittenLiteral where
  | number (value : Word)
  | text (spelling : String)
  deriving DecidableEq, Inhabited

/-- One thing on its own, or a list of any length. -/
inductive OneOrMany (α : Type) where
  | one (item : α)
  | many (items : List α)
  deriving DecidableEq, Inhabited

namespace OneOrMany

variable {α : Type}

def toList : OneOrMany α → List α
  | .one item => [item]
  | .many items => items

def ofList : List α → OneOrMany α
  | [item] => .one item
  | items => .many items

@[simp] theorem toList_ofList (items : List α) : (ofList items).toList = items := by
  unfold ofList
  split <;> rfl

end OneOrMany

structure WrittenCell where
  name : Option String := none
  symbol : Option String := none
  symbols : Option (OneOrMany String) := none
  value : Option WrittenLiteral := none
  values : Option (OneOrMany WrittenLiteral) := none
  onRead : Option String := none
  onWrite : Option (OneOrMany String) := none
  deriving DecidableEq, Inhabited

inductive Entry where
  | literal (value : WrittenLiteral)
  | block (values : List WrittenLiteral)
  | cell (content : WrittenCell)
  deriving DecidableEq, Inhabited

structure ConfigFile where
  entries : Sparse Entry := ∅
  deriving Inhabited

namespace ConfigFile

/-- The file with these entries; a later one of an address wins. -/
def ofList (entries : List (Address × Entry)) : ConfigFile :=
  ⟨Std.ExtTreeMap.ofList entries compare⟩

def toList (file : ConfigFile) : List (Address × Entry) := file.entries.toList

def size (file : ConfigFile) : Nat := file.entries.size

end ConfigFile

end MoveMachine
