import MoveMachine.Device.Registry
import MoveMachine.Proofs.Keeping

set_option autoImplicit false

namespace MoveMachine

/-- Cells may be set, and the host may be used in given ways. -/
def Allowance.passive (uses : (Host → Word × Host) → Prop) : Allowance where
  change
    | .poke _ _ => True
    | _ => False
  act := uses

def Host.UsesConsole (act : Host → Word × Host) : Prop :=
  act = Host.getWord ∨ ∃ word, act = fun host => (0, host.putWord word)

theorem Device.passive_of_mem_standardReads {device : String × Script}
    (listed : device ∈ standardReads) : device.2.Respects (.passive Host.UsesConsole) := by
  have reading : ∀ (key : CellRef) (next : Word → Script),
      (∀ word, (next word).Respects (.passive Host.UsesConsole)) →
      (Script.reading key next).Respects (.passive Host.UsesConsole) := by
    intro key next passive outcome
    cases outcome with
    | ok word => exact passive word
    | error error => exact True.intro
  have binary : ∀ op : Word → Word → Word, (Device.binary op).Respects
      (.passive Host.UsesConsole) :=
    fun op => reading _ _ fun a => reading _ _ fun b => True.intro
  simp only [standardReads, arithmetic, List.cons_append, List.nil_append, List.mem_cons,
    List.not_mem_nil, or_false] at listed
  rcases listed with rfl | rfl | rfl | rfl | rfl | rfl | rfl | rfl | rfl | rfl | rfl
  all_goals first
    | exact binary _
    | exact reading _ _ fun c => True.intro
    | exact reading _ _ fun c => reading _ _ fun chosen => True.intro
    | exact ⟨.inl rfl, fun word => True.intro⟩

theorem Wiring.onRead_standard {P : Script → Prop} (idle : P (.done 0))
    (devices : ∀ device ∈ Device.standardReads, P device.2) (trigger : ReadTrigger) :
    P (Wiring.standard.onRead trigger) := by
  have script : Wiring.standard.onRead trigger =
      ((Device.standardReads.map (·.2))[trigger.id]?).getD (.done 0) := by
    simp only [Wiring.onRead, Wiring.standard, Array.getD_eq_getD_getElem?,
      List.getElem?_toArray]
  rw [script]
  cases found : (Device.standardReads.map (·.2))[trigger.id]? with
  | none => exact idle
  | some script =>
    obtain ⟨device, listed, rfl⟩ := List.mem_map.1 (List.mem_of_getElem? found)
    exact devices device listed

theorem Wiring.onWrite_standard {P : Script → Prop} (idle : P (.done 0))
    (output : ∀ value, P (Device.putchar value)) (trigger : WriteTrigger) (value : Word) :
    P (Wiring.standard.onWrite trigger value) := by
  have script : Wiring.standard.onWrite trigger value =
      ((Device.standardWrites.map (·.2))[trigger.id]?).getD (fun _ => .done 0) value := by
    simp only [Wiring.onWrite, Wiring.standard, Array.getD_eq_getD_getElem?,
      List.getElem?_toArray]
  rw [script]
  cases found : (Device.standardWrites.map (·.2))[trigger.id]? with
  | none => exact idle
  | some script =>
    obtain ⟨device, listed, rfl⟩ := List.mem_map.1 (List.mem_of_getElem? found)
    obtain rfl := List.mem_singleton.1 listed
    exact output value

theorem Wiring.standard_passive : Wiring.standard.Respects (.passive Host.UsesConsole) where
  onRead := Wiring.onRead_standard True.intro fun _ => Device.passive_of_mem_standardReads
  onWrite := Wiring.onWrite_standard True.intro
    fun value => ⟨.inr ⟨value, rfl⟩, fun _ => True.intro⟩

/-- A request to use or run a machine as it is wired. -/
def Request.isPassive : Request → Bool
  | .read _ | .write _ _ | .poke _ _ | .step | .run _ => true
  | .bind _ _ | .installRead _ _ | .installWrites _ _ _ | .configure _ => false

theorem Request.respects_of_isPassive {uses : (Host → Word × Host) → Prop} {request : Request}
    (own : request.isPassive = true) : request.Respects (.passive uses) := by
  cases request with
  | read | write | poke | step | run => exact True.intro
  | bind | installRead | installWrites | configure => cases own

/-- Two memories with the same symbols, and the same triggers on every cell. -/
structure Memory.SameWiring (before after : Memory) : Prop where
  symbols : after.symbols = before.symbols
  readTrigger : ∀ address, after.readTrigger address = before.readTrigger address
  writeTriggers : ∀ address, after.writeTriggers address = before.writeTriggers address

namespace Memory.SameWiring

theorem refl (memory : Memory) : memory.SameWiring memory := ⟨rfl, fun _ => rfl, fun _ => rfl⟩

theorem trans {m n k : Memory} (first : m.SameWiring n) (second : n.SameWiring k) :
    m.SameWiring k where
  symbols := second.symbols.trans first.symbols
  readTrigger address := (second.readTrigger address).trans (first.readTrigger address)
  writeTriggers address := (second.writeTriggers address).trans (first.writeTriggers address)

theorem update (memory : Memory) (address : Address) {change : Cell → Cell}
    (spares : ∀ cell, (change cell).onRead = cell.onRead ∧ (change cell).onWrite = cell.onWrite) :
    memory.SameWiring (memory.update address change) := by
  have cells := forall_cell_update
    (P := fun place cell => cell.onRead = (memory.cell place).onRead ∧
      cell.onWrite = (memory.cell place).onWrite)
    (fun _ => ⟨rfl, rfl⟩) (spares (memory.cell address))
  exact ⟨rfl, fun place => (cells place).1, fun place => (cells place).2⟩

theorem poke (memory : Memory) (address : Address) (value : Word) :
    memory.SameWiring (memory.poke address value) :=
  update memory address fun _ => ⟨rfl, rfl⟩

theorem observe (memory : Memory) (address : Address) (value : Word) :
    memory.SameWiring (memory.observe address value) :=
  update memory address fun _ => ⟨rfl, rfl⟩

theorem record (memory : Memory) (address : Address) (value : Word) :
    memory.SameWiring (memory.record address value) := by
  -- The clock moves first, and then the cell is changed like any other.
  have stamped : Memory.SameWiring { memory with clock := memory.clock + 1 }
      (memory.record address value) := update _ address fun _ => ⟨rfl, rfl⟩
  exact ⟨stamped.symbols, stamped.readTrigger, stamped.writeTriggers⟩

theorem frame (uses : (Host → Word × Host) → Prop) :
    World.Frame (.passive uses) fun before after => before.memory.SameWiring after.memory where
  refl world := refl world.memory
  trans _ _ _ first second := first.trans second
  change world change direct allowed := by
    cases change with
    | poke address value => exact poke world.memory address value
    | observe | record => cases direct
    | bind | setReadTrigger | addWriteTriggers => exact allowed.elim
  record world := record world.memory
  observe kept address value _ := kept.trans (observe _ address value)
  act world _ _ := refl world.memory

end Memory.SameWiring

end MoveMachine
