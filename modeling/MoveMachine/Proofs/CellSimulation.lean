import MoveMachine.Proofs.Simulation

set_option autoImplicit false

namespace MoveMachine

/-- The same symbols, a clock behind by a lag, and related cells at every address. -/
structure Memory.Cellwise (lag : Nat) (C : Cell → Cell → Prop) (left right : Memory) : Prop where
  symbols : left.symbols = right.symbols
  clock : left.clock = right.clock + lag
  cell : ∀ address, C (left.cell address) (right.cell address)

/--
A relation of cells that hides stored values at most beneath a read trigger, shifts stamps by
the lag of the clock, and is kept by every change of a cell.
-/
structure Cell.Simulation (lag : Nat) (C : Cell → Cell → Prop) : Prop where
  onRead : ∀ {c d}, C c d → c.onRead = d.onRead
  onWrite : ∀ {c d}, C c d → c.onWrite = d.onWrite
  stored : ∀ {c d}, C c d → c.onRead = none → c.stored = d.stored
  writtenAt : ∀ {c d}, C c d → d.writtenAt = c.writtenAt - lag
  poke : ∀ {c d}, C c d → ∀ value,
    C { c with stored := some value, observed := some value }
      { d with stored := some value, observed := some value }
  observe : ∀ {c d}, C c d → ∀ value,
    C { c with observed := some value } { d with observed := some value }
  record : ∀ {c d}, C c d → ∀ value time,
    C { c with stored := some value, observed := some value, writtenAt := time + lag }
      { d with stored := some value, observed := some value, writtenAt := time }
  setReadTrigger : ∀ {c d}, C c d → ∀ trigger,
    C { c with onRead := some trigger } { d with onRead := some trigger }
  addWriteTriggers : ∀ {c d}, C c d → ∀ triggers,
    C { c with onWrite := triggers } { d with onWrite := triggers }

namespace Cell.Simulation

variable {lag : Nat} {C : Cell → Cell → Prop} (simulation : Cell.Simulation lag C)

include simulation

omit simulation in
private theorem update {left right : Memory}
    (related : ∀ place, C (left.cell place) (right.cell place)) (address : Address)
    {f g : Cell → Cell} (changed : C (f (left.cell address)) (g (right.cell address)))
    (place : Address) :
    C ((left.update address f).cell place) ((right.update address g).cell place) := by
  rw [Memory.cell_update, Memory.cell_update]
  by_cases same : address = place
  · rw [if_pos same, if_pos same]
    exact changed
  · rw [if_neg same, if_neg same]
    exact related place

private theorem change {left right : Memory} (related : Memory.Cellwise lag C left right)
    (change : Memory.Change) : Memory.Cellwise lag C (change.apply left) (change.apply right) := by
  obtain ⟨symbols, clock, cells⟩ := related
  cases change with
  | poke address value =>
    have poked := simulation.poke (cells address) value
    exact ⟨symbols, clock, update cells address poked⟩
  | observe address value =>
    have observed := simulation.observe (cells address) value
    exact ⟨symbols, clock, update cells address observed⟩
  | record address value =>
    have later : left.clock + 1 = right.clock + 1 + lag := by omega
    have recorded := simulation.record (cells address) value (right.clock + 1)
    rw [← later] at recorded
    have ticked : ∀ place, C (({ left with clock := left.clock + 1 } : Memory).cell place)
        (({ right with clock := right.clock + 1 } : Memory).cell place) := cells
    exact ⟨symbols, later, update ticked address recorded⟩
  | bind name address =>
    exact ⟨congrArg (fun table => table.bind name address) symbols, clock, cells⟩
  | setReadTrigger address trigger =>
    have installed := simulation.setReadTrigger (cells address) trigger
    exact ⟨symbols, clock, update cells address installed⟩
  | addWriteTriggers address triggers overwrite =>
    have same := simulation.onWrite (cells address)
    have installed := simulation.addWriteTriggers (cells address)
      (if overwrite then triggers else (right.cell address).onWrite ++ triggers)
    refine ⟨symbols, clock, update cells address ?_⟩
    simp only [same]
    exact installed

/-- Memories simulate each other if their cells do. -/
theorem memory : Memory.Simulation (Memory.Cellwise lag C) where
  symbols related := related.symbols
  readTrigger related address := simulation.onRead (related.cell address)
  writeTriggers related address := simulation.onWrite (related.cell address)
  peek := by
    intro left right related address untriggered
    have same := simulation.stored (related.cell address) untriggered
    simp only [Memory.peek, Memory.stored, same]
  writtenSince := by
    intro left right left' right' marked tested address
    have mark := marked.clock
    have stamp := simulation.writtenAt (tested.cell address)
    unfold Memory.writtenSince
    rw [decide_eq_decide]
    omega
  change related change := simulation.change related change

end Cell.Simulation

end MoveMachine
