import MoveMachine.Decimal
import MoveMachine.Host
import MoveMachine.Text.Inline
import MoveMachine.Text.Quoted

/-!
Triggers. A cell may carry one read trigger, which computes its value, and a list of write
triggers, which react to what is written to it. A cell holds handles only: a label, by which
a configuration file names a device, and an identity. What an identity does is a `Script`,
and a `Wiring` lists the scripts of all identities, so that a memory stays plain data.

A script uses memory only by reading, writing and wiring cells; it is never told what is
stored beneath a read trigger.
-/

set_option autoImplicit false

namespace MoveMachine

inductive CellRef where
  | address (number : Address)
  | name (spelling : String)
  deriving DecidableEq, Inhabited

namespace CellRef

instance : Coe Address CellRef := ⟨.address⟩

def text : CellRef → String
  | .address number => Decimal.ofAddress number
  | .name spelling => spelling

end CellRef

inductive MemoryError where
  /-- The name is neither a bound symbol nor the decimal text of an address. -/
  | unknownSymbol (name : String)
  /-- A trigger gave up. -/
  | device (reason : String)
  deriving DecidableEq, Inhabited

def MemoryError.message : MemoryError → String
  | .unknownSymbol name => "unknown symbol: " ++ name
  | .device reason => "device error: " ++ reason

/-- Handle of a trigger that computes a cell's value whenever the cell is read. -/
structure ReadTrigger where
  label : Option String
  id : Nat
  deriving DecidableEq, Inhabited

structure WriteTrigger where
  label : Option String
  id : Nat
  deriving DecidableEq, Inhabited

def labelText (label : Option String) : String :=
  Text.Quoted.ofString (label.getD "<anonymous>")

def ReadTrigger.describe (trigger : ReadTrigger) : String :=
  Text.Inline.wrap "ReadTrigger" (labelText trigger.label)

def WriteTrigger.describe (trigger : WriteTrigger) : String :=
  Text.Inline.wrap "WriteTrigger" (labelText trigger.label)

/-- True if both handles stand for one trigger. -/
def ReadTrigger.same (trigger other : ReadTrigger) : Bool := trigger.id == other.id

def WriteTrigger.same (trigger other : WriteTrigger) : Bool := trigger.id == other.id

/--
What a trigger does: it ends with a word or an error, or makes one access and goes on with the
outcome, which may be an error that the script chooses to survive. No script can look at the raw
word under a read trigger, at an observed word, at a stamp or at the clock.
-/
inductive Script where
  | done (answer : Word)
  | fail (error : MemoryError)
  | read (key : CellRef) (next : Except MemoryError Word → Script)
  | write (key : CellRef) (value : Word) (next : Except MemoryError Unit → Script)
  | poke (address : Address) (value : Word) (next : Script)
  | bind (name : String) (address : Address) (next : Script)
  | onRead (key : CellRef) (trigger : ReadTrigger) (next : Except MemoryError Unit → Script)
  | onWrite (key : CellRef) (triggers : List WriteTrigger) (overwrite : Bool)
      (next : Except MemoryError Unit → Script)
  | host (act : Host → Word × Host) (next : Word → Script)

namespace Script

instance : Inhabited Script := ⟨.done 0⟩

/-- Goes on with an outcome that succeeded and gives up with one that failed. -/
def orFail {α : Type} (next : α → Script) : Except MemoryError α → Script
  | .ok answer => next answer
  | .error error => .fail error

def reading (key : CellRef) (next : Word → Script) : Script := .read key (orFail next)

def writing (key : CellRef) (value : Word) (next : Script) : Script :=
  .write key value (orFail fun _ => next)

end Script

/--
The scripts of all triggers, by identity. A write trigger's script depends on the word that
was written, and what it ends with is dropped. An identity without a script does nothing.
-/
structure Wiring where
  reads : Array Script := #[]
  writes : Array (Word → Script) := #[]
  deriving Inhabited

namespace Wiring

def onRead (wiring : Wiring) (trigger : ReadTrigger) : Script :=
  wiring.reads.getD trigger.id (.done 0)

def onWrite (wiring : Wiring) (trigger : WriteTrigger) (value : Word) : Script :=
  wiring.writes.getD trigger.id (fun _ => .done 0) value

def addRead (wiring : Wiring) (label : Option String) (script : Script) : ReadTrigger × Wiring :=
  (⟨label, wiring.reads.size⟩, { wiring with reads := wiring.reads.push script })

def addWrite (wiring : Wiring) (label : Option String) (script : Word → Script) :
    WriteTrigger × Wiring :=
  (⟨label, wiring.writes.size⟩, { wiring with writes := wiring.writes.push script })

end Wiring

end MoveMachine
