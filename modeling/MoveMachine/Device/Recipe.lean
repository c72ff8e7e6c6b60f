import MoveMachine.Device.Registry

set_option autoImplicit false

namespace MoveMachine

/-- What a read trigger shall do. -/
inductive ReadRecipe where
  | device (name : String)
  /-- Answers always the same. -/
  | constant (answer : Word)
  /-- Answers a number, then the next one, and so on. -/
  | counter (start : Word)
  /-- Answers what another cell reads. -/
  | forward (key : CellRef)
  /-- Answers the sum of some cells, read in order. -/
  | sum (keys : List CellRef)
  /-- Adds one to another cell and answers what it read before. -/
  | increment (key : CellRef)
  /-- Writes another cell, then answers. -/
  | write (key : CellRef) (value answer : Word)
  /-- Sets the raw value of another cell, then answers. -/
  | poke (place : Address) (value answer : Word)
  /-- Installs a read trigger at a cell, then answers. -/
  | install (key : CellRef) (label : Option String) (recipe : ReadRecipe) (answer : Word)
  | fail (reason : String)
  deriving Inhabited

/-- What a write trigger shall do with the word that was written. -/
inductive WriteRecipe where
  | device (name : String)
  /-- Records the word in the journal. -/
  | log (tag : String)
  /-- Writes a multiple of the word plus an offset to another cell. -/
  | forward (key : CellRef) (factor offset : Word)
  /-- Copies one cell to another. -/
  | copy (source target : CellRef)
  /-- Writes the word less one to another cell, as long as it is positive. -/
  | countdown (key : CellRef)
  | poke (place : Address)
  | bind (name : String)
  /-- Installs write triggers at a cell. -/
  | install (key : CellRef) (recipes : List (Option String × WriteRecipe)) (overwrite : Bool)
  | fail (reason : String)
  deriving Inhabited

structure Workshop where
  wiring : Wiring := {}
  registry : Registry := {}
  host : Host := {}
  deriving Inhabited

abbrev Workshop.Build := StateT Workshop (Except ConfigError)

namespace Workshop

def standard (console : Console) : Workshop :=
  { wiring := .standard, registry := .standard, host := { console } }

def wireRead (label : Option String) (script : Script) : Build ReadTrigger :=
  modifyGet fun workshop =>
    let (trigger, wiring) := workshop.wiring.addRead label script
    (trigger, { workshop with wiring })

def wireWrite (label : Option String) (script : Word → Script) : Build WriteTrigger :=
  modifyGet fun workshop =>
    let (trigger, wiring) := workshop.wiring.addWrite label script
    (trigger, { workshop with wiring })

def addCounter (start : Word) : Build Nat :=
  modifyGet fun workshop =>
    let counters := workshop.host.counters
    (counters.size,
      { workshop with host := { workshop.host with counters := counters.push start } })

end Workshop

namespace ReadRecipe

open Workshop

def addUp : List CellRef → Word → Script
  | [], total => .done total
  | key :: rest, total => .reading key fun value => addUp rest (total + value)

/-- Builds the trigger of a recipe. A registered trigger keeps its own label. -/
def build (label : Option String) : ReadRecipe → Build ReadTrigger
  | .device name => do MonadExcept.ofExcept ((← get).registry.read name)
  | .constant answer => wireRead label (.done answer)
  | .counter start => do
    let index ← addCounter start
    wireRead label (.host (fun host => host.count index) .done)
  | .forward key => wireRead label (.reading key .done)
  | .sum keys => wireRead label (addUp keys 0)
  | .increment key =>
    wireRead label (.reading key fun value => .writing key (value + 1) (.done value))
  | .write key value answer => wireRead label (.writing key value (.done answer))
  | .poke place value answer => wireRead label (.poke place value (.done answer))
  | .install key innerLabel recipe answer => do
    let trigger ← build innerLabel recipe
    wireRead label (.onRead key trigger (Script.orFail fun _ => .done answer))
  | .fail reason => wireRead label (.fail (.device reason))

end ReadRecipe

namespace WriteRecipe

open Workshop

def bindTo (name : String) (value : Word) : Script :=
  match Address.ofWord? value with
  | some address => .bind name address (.done 0)
  | none => .fail (.device "negative address")

mutual

def build (label : Option String) : WriteRecipe → Build WriteTrigger
  | .device name => do MonadExcept.ofExcept ((← get).registry.write name)
  | .log tag =>
    wireWrite label fun value => .host (fun host => (0, host.record tag value)) .done
  | .forward key factor offset =>
    wireWrite label fun value => .writing key (value * factor + offset) (.done 0)
  | .copy source target =>
    wireWrite label fun _ => .reading source fun value => .writing target value (.done 0)
  | .countdown key =>
    wireWrite label fun value => if 0 < value then .writing key (value - 1) (.done 0) else .done 0
  | .poke place => wireWrite label fun value => .poke place value (.done 0)
  | .bind name => wireWrite label (bindTo name)
  | .install key recipes overwrite => do
    let triggers ← buildAll recipes
    wireWrite label fun _ => .onWrite key triggers overwrite (Script.orFail fun _ => .done 0)
  | .fail reason => wireWrite label fun _ => .fail (.device reason)

def buildAll : List (Option String × WriteRecipe) → Build (List WriteTrigger)
  | [] => return []
  | (label, recipe) :: rest => do return (← build label recipe) :: (← buildAll rest)

end

end WriteRecipe

end MoveMachine
