import MoveMachine.Device.Registry
import MoveMachine.Machine

set_option autoImplicit false

namespace MoveMachine

namespace Memory

theorem stored_observe (memory : Memory) (address other : Address) (value : Word) :
    (memory.observe address value).stored other = memory.stored other := by
  rw [stored, cell_observe]
  split
  · rename_i same
    rw [stored, same]
  · rfl

theorem stored_record (memory : Memory) (address other : Address) (value : Word) :
    (memory.record address value).stored other =
      if address = other then some value else memory.stored other := by
  rw [stored, cell_record]
  split <;> rfl

end Memory

namespace Access

variable {call : ReadTrigger → Access MemoryError Word}
  {callWrite : WriteTrigger → Word → Access MemoryError Unit} {world : World}

theorem readVia_plain {key : CellRef} {address : Address}
    (resolved : world.memory.resolve key = .ok address)
    (plain : world.memory.readTrigger address = none) :
    readVia call key world = some (.ok (world.memory.peek address), world) := by
  have found : resolve key world = some (.ok address, world) := by rw [resolve_apply, resolved]
  rw [readVia, Action.bind_of_ok found, Action.get_bind_apply, Stage.world_self, plain]
  rfl

theorem readVia_resolved {key : CellRef} {address : Address}
    (resolved : world.memory.resolve key = .ok address) :
    readVia call key world = readVia call address world := by
  have named : resolve key world = some (.ok address, world) := by rw [resolve_apply, resolved]
  have direct : resolve address world = some (.ok address, world) := rfl
  rw [readVia, readVia, Action.bind_of_ok named, Action.bind_of_ok direct]

theorem readVia_computed {address : Address} {trigger : ReadTrigger} {value : Word}
    {after : World} (triggered : world.memory.readTrigger address = some trigger)
    (answered : call trigger world = some (.ok value, after)) :
    readVia call address world =
      some (.ok value, { after with memory := after.memory.observe address value }) := by
  have found : resolve address world = some (.ok address, world) := rfl
  simp only [readVia, Action.bind_of_ok found, Action.get_bind_apply, Stage.world_self, triggered,
    Action.bind_of_ok answered]
  rfl

theorem writeVia_resolved {key : CellRef} {address : Address}
    (resolved : world.memory.resolve key = .ok address) (value : Word) :
    writeVia callWrite key value world =
      (world.memory.writeTriggers address).forM (fun trigger => callWrite trigger value)
        { world with memory := world.memory.record address value } := by
  have found : resolve key world = some (.ok address, world) := by rw [resolve_apply, resolved]
  have kept : (world.memory.record address value).writeTriggers address =
      world.memory.writeTriggers address := by
    simp [Memory.writeTriggers]
  rw [writeVia, Action.bind_of_ok found, Action.bind_of_ok (record_apply ..),
    Action.get_bind_apply, Stage.world_self, kept]

theorem writeVia_plain {address : Address}
    (plain : world.memory.writeTriggers address = []) (value : Word) :
    writeVia callWrite address value world =
      some (.ok (), { world with memory := world.memory.record address value }) := by
  have resolved : world.memory.resolve address = .ok address := rfl
  rw [writeVia_resolved resolved, plain]
  rfl

theorem writeVia_single {address : Address} {trigger : WriteTrigger}
    (triggered : world.memory.writeTriggers address = [trigger]) {value : Word} {after : World}
    (ran : callWrite trigger value
      { world with memory := world.memory.record address value } = some (.ok (), after)) :
    writeVia callWrite address value world = some (.ok (), after) := by
  have resolved : world.memory.resolve address = .ok address := rfl
  rw [writeVia_resolved resolved, triggered]
  exact (Action.bind_of_ok ran).trans rfl

theorem followVia_reading {key : CellRef} {next : Word → Script} {address : Address}
    (resolved : world.memory.resolve key = .ok address)
    (plain : world.memory.readTrigger address = none) :
    followVia call callWrite (.reading key next) world =
      followVia call callWrite (next (world.memory.peek address)) world := by
  have read : Action.outcome (ε := MemoryError) (readVia call key) world =
      some (.ok (.ok (world.memory.peek address)), world) := by
    rw [Action.outcome, readVia_plain resolved plain]
    rfl
  exact Action.bind_of_ok read

end Access

def Device.registers : List String := ["A", "B", "C"]

/-- The names of the registers belong to the cells 1, 2 and 3, which hold plain words. -/
structure Memory.Registers (memory : Memory) : Prop where
  a : memory.symbols.resolve "A" = some 1
  b : memory.symbols.resolve "B" = some 2
  c : memory.symbols.resolve "C" = some 3
  plainA : memory.readTrigger 1 = none
  plainB : memory.readTrigger 2 = none
  plainC : memory.readTrigger 3 = none

/-- A script answers with a function of the registers, and changes nothing. -/
def Script.Computes (script : Script) (op : Word → Word → Word → Word) : Prop :=
  ∀ (wiring : Wiring) (depth : Nat) (world : World), world.memory.Registers →
    Access.follow wiring (depth + 1) script world =
      some (.ok (op (world.memory.peek 1) (world.memory.peek 2) (world.memory.peek 3)), world)

namespace Device

theorem computes_binary (op : Word → Word → Word) :
    (binary op).Computes fun a b _ => op a b := by
  intro wiring depth world registers
  have a : world.memory.resolve (.name "A") = .ok 1 := by simp [Memory.resolve, registers.a]
  have b : world.memory.resolve (.name "B") = .ok 2 := by simp [Memory.resolve, registers.b]
  rw [Access.follow, binary, Access.followVia_reading a registers.plainA,
    Access.followVia_reading b registers.plainB]
  rfl

theorem computes_negation : negation.Computes fun _ _ c => Word.ofBool (c != 0) := by
  intro wiring depth world registers
  have c : world.memory.resolve (.name "C") = .ok 3 := by simp [Memory.resolve, registers.c]
  rw [Access.follow, negation, Access.followVia_reading c registers.plainC]
  rfl

theorem computes_selection : selection.Computes fun a b c => if c = 0 then a else b := by
  intro wiring depth world registers
  have a : world.memory.resolve (.name "A") = .ok 1 := by simp [Memory.resolve, registers.a]
  have b : world.memory.resolve (.name "B") = .ok 2 := by simp [Memory.resolve, registers.b]
  have c : world.memory.resolve (.name "C") = .ok 3 := by simp [Memory.resolve, registers.c]
  rw [Access.follow, selection, Access.followVia_reading c registers.plainC]
  by_cases zero : world.memory.peek 3 = 0
  · simp only [if_pos zero, Access.followVia_reading a registers.plainA]
    rfl
  · simp only [if_neg zero, Access.followVia_reading b registers.plainB]
    rfl

/-- What the devices of arithmetic and logic compute from the registers, in their order. -/
def operations : List (Word → Word → Word → Word) :=
  [fun a b _ => a + b, fun a b _ => a - b, fun a b _ => a * b, fun a b _ => Word.floorDiv a b,
    fun a b _ => Word.ofBool (a > b), fun a b _ => Word.ofBool (a < b),
    fun a b _ => Word.ofBool (a = b), fun a b _ => a ^^^ b, fun _ _ c => Word.ofBool (c != 0),
    fun a b c => if c = 0 then a else b]

theorem computes_standard {id : Nat} {op : Word → Word → Word → Word}
    (listed : operations[id]? = some op) (label : Option String) :
    (Wiring.standard.onRead ⟨label, id⟩).Computes op := by
  match id, listed with
  | 0, rfl | 1, rfl | 2, rfl | 3, rfl | 4, rfl | 5, rfl | 6, rfl | 7, rfl =>
    exact computes_binary _
  | 8, rfl => exact computes_negation
  | 9, rfl => exact computes_selection

end Device

end MoveMachine
