import MoveMachine.Access
import MoveMachine.Proofs.Lockstep

/-!
Simulations between stages. Whatever triggers do, they change memory in six ways only, the
`Memory.Change`s. Two of them are what reads and writes do to memory; the others, and the uses of
the host, are what a script asks for, and an `Allowance` says which of these it may. Two stages
simulate each other on given terms if a read and the jump test have nothing to tell them apart, and
if all that is allowed keeps the terms. Then every access runs in lockstep on them, at every depth
of nesting.

The induction is on the depth and, inside, on the script.
-/

set_option autoImplicit false

namespace MoveMachine

open MoveMachine.Action (Terms Agree Lockstep AnyError)

namespace Memory

/-- One change that an access makes to a memory. -/
inductive Change where
  | poke (address : Address) (value : Word)
  | observe (address : Address) (value : Word)
  | record (address : Address) (value : Word)
  | bind (name : String) (address : Address)
  | setReadTrigger (address : Address) (trigger : ReadTrigger)
  | addWriteTriggers (address : Address) (triggers : List WriteTrigger) (overwrite : Bool)

def Change.apply : Change → Memory → Memory
  | .poke address value, memory => memory.poke address value
  | .observe address value, memory => memory.observe address value
  | .record address value, memory => memory.record address value
  | .bind name address, memory => memory.bind name address
  | .setReadTrigger address trigger, memory => memory.setReadTrigger address trigger
  | .addWriteTriggers address triggers overwrite, memory =>
    memory.addWriteTriggers address triggers overwrite

/-- True of a change that is asked for as such, and is not part of a read or a write. -/
def Change.isDirect : Change → Bool
  | .observe _ _ | .record _ _ => false
  | .poke _ _ | .bind _ _ | .setReadTrigger _ _ | .addWriteTriggers _ _ _ => true

structure Invariant (P : Memory → Prop) : Prop where
  change : ∀ {memory}, P memory → ∀ change : Change, P (change.apply memory)

/-- A relation of memories that accesses cannot tell apart and that every change keeps. -/
structure Simulation (R : Memory → Memory → Prop) : Prop where
  symbols : ∀ {m n}, R m n → m.symbols = n.symbols
  readTrigger : ∀ {m n}, R m n → ∀ address, m.readTrigger address = n.readTrigger address
  writeTriggers : ∀ {m n}, R m n → ∀ address, m.writeTriggers address = n.writeTriggers address
  /-- Values need to agree only where a read is not answered by a trigger. -/
  peek : ∀ {m n}, R m n → ∀ address, m.readTrigger address = none →
    m.peek address = n.peek address
  /-- A mark taken in one related pair tells the same in every later one. -/
  writtenSince : ∀ {m n m' n'}, R m n → R m' n' → ∀ address,
    m'.writtenSince address m.clock = n'.writtenSince address n.clock
  change : ∀ {m n}, R m n → ∀ change : Change, R (change.apply m) (change.apply n)

theorem resolve_congr {m n : Memory} (same : m.symbols = n.symbols) (key : CellRef) :
    m.resolve key = n.resolve key := by
  cases key with
  | address => rfl
  | name name => simp only [Memory.resolve, same]

end Memory

/-- What may be asked for: direct changes of memory, and uses of the host. -/
structure Allowance where
  change : Memory.Change → Prop
  act : (Host → Word × Host) → Prop

def Allowance.all : Allowance where
  change _ := True
  act _ := True

/-- All that a script asks for is allowed, whatever it is told on the way. -/
def Script.Respects (may : Allowance) : Script → Prop
  | .done _ | .fail _ => True
  | .read _ next => ∀ outcome, (next outcome).Respects may
  | .write _ _ next => ∀ outcome, (next outcome).Respects may
  | .poke address value next => may.change (.poke address value) ∧ next.Respects may
  | .bind name address next => may.change (.bind name address) ∧ next.Respects may
  | .onRead _ trigger next =>
    (∀ address, may.change (.setReadTrigger address trigger)) ∧
      ∀ outcome, (next outcome).Respects may
  | .onWrite _ triggers overwrite next =>
    (∀ address, may.change (.addWriteTriggers address triggers overwrite)) ∧
      ∀ outcome, (next outcome).Respects may
  | .host act next => may.act act ∧ ∀ word, (next word).Respects may

structure Wiring.Respects (may : Allowance) (wiring : Wiring) : Prop where
  onRead : ∀ trigger, (wiring.onRead trigger).Respects may
  onWrite : ∀ trigger value, (wiring.onWrite trigger value).Respects may

theorem Script.respects_all (script : Script) : script.Respects .all := by
  induction script with
  | done | fail => exact True.intro
  | read _ _ ih | write _ _ _ ih => exact ih
  | poke _ _ _ ih | bind _ _ _ ih => exact ⟨True.intro, ih⟩
  | onRead _ _ _ ih | onWrite _ _ _ _ ih => exact ⟨fun _ => True.intro, ih⟩
  | host _ _ ih => exact ⟨True.intro, ih⟩

theorem Wiring.respects_all (wiring : Wiring) : wiring.Respects .all :=
  ⟨fun _ => Script.respects_all _, fun _ _ => Script.respects_all _⟩

theorem Wiring.respects_of_mem {may : Allowance} {wiring : Wiring}
    (reads : ∀ script ∈ wiring.reads, script.Respects may)
    (writes : ∀ script ∈ wiring.writes, ∀ value, (script value).Respects may) :
    wiring.Respects may := by
  constructor
  · intro trigger
    rw [Wiring.onRead, Array.getD_eq_getD_getElem?]
    cases found : wiring.reads[trigger.id]? with
    | none => exact True.intro
    | some script => exact reads script (Array.mem_of_getElem? found)
  · intro trigger value
    rw [Wiring.onWrite, Array.getD_eq_getD_getElem?]
    cases found : wiring.writes[trigger.id]? with
    | none => exact True.intro
    | some script => exact writes script (Array.mem_of_getElem? found) value

/-- The right may nest triggers deeper, if then an outcome may be missing on the left alone. -/
def Action.Terms.Spans {σ τ : Type} (terms : Terms σ τ) (depth deeper : Nat) : Prop :=
  depth = deeper ∨ terms.alone ∧ depth ≤ deeper

/-- Two stages that accesses cannot tell apart, on terms that all keeps which is allowed. -/
structure Stage.Simulation {σ τ : Type} [Stage σ] [Stage τ] (may : Allowance)
    (terms : Terms σ τ) : Prop where
  lacks : terms.lacks
  symbols : ∀ {s t}, terms.goes s t s t →
    (world s).memory.symbols = (world t).memory.symbols
  readTrigger : ∀ {s t}, terms.goes s t s t → ∀ address,
    (world s).memory.readTrigger address = (world t).memory.readTrigger address
  writeTriggers : ∀ {s t}, terms.goes s t s t → ∀ address,
    (world s).memory.writeTriggers address = (world t).memory.writeTriggers address
  /-- Values need to agree only where a read is not answered by a trigger. -/
  peek : ∀ {s t}, terms.goes s t s t → ∀ address,
    (world s).memory.readTrigger address = none →
    (world s).memory.peek address = (world t).memory.peek address
  /-- A mark of the clock tells the same of whatever the two stages come to. -/
  writtenSince : ∀ {s t s' t'}, terms.goes s t s' t' → ∀ address,
    (world s').memory.writtenSince address (world s).memory.clock =
      (world t').memory.writtenSince address (world t).memory.clock
  host : ∀ {s t}, terms.goes s t s t → (world s).host = (world t).host
  change : ∀ {s t}, terms.goes s t s t → ∀ change : Memory.Change, change.isDirect = true →
    may.change change →
    terms.goes s t (changeMemory change.apply s) (changeMemory change.apply t)
  record : ∀ {s t}, terms.goes s t s t → ∀ address value,
    terms.goes s t (record address value s) (record address value t)
  /-- An answer is noted at a cell that had a read trigger when it was asked. -/
  observe : ∀ {s t s' t'}, terms.goes s t s' t' → ∀ address value,
    (world s).memory.readTrigger address ≠ none →
    terms.goes s t (changeMemory (fun memory => memory.observe address value) s')
      (changeMemory (fun memory => memory.observe address value) t')
  act : ∀ {s t}, terms.goes s t s t → ∀ act, may.act act →
    terms.goes s t (changeHost (fun host => (act host).2) s)
      (changeHost (fun host => (act host).2) t)

structure World.Alike (R : Memory → Memory → Prop) (left right : World) : Prop where
  memory : R left.memory right.memory
  host : left.host = right.host

/-- Memories that simulate each other are stages for whatever triggers there are. -/
theorem Memory.Simulation.stage {R : Memory → Memory → Prop} (simulation : Simulation R) :
    Stage.Simulation .all (Terms.alike (World.Alike R)) where
  lacks := True.intro
  symbols alike := simulation.symbols alike.1.memory
  readTrigger alike := simulation.readTrigger alike.1.memory
  writeTriggers alike := simulation.writeTriggers alike.1.memory
  peek alike := simulation.peek alike.1.memory
  writtenSince both := simulation.writtenSince both.1.memory both.2.memory
  host alike := alike.1.host
  change alike change _ _ := ⟨alike.1, simulation.change alike.1.memory change, alike.1.host⟩
  record alike address value :=
    ⟨alike.1, simulation.change alike.1.memory (.record address value), alike.1.host⟩
  observe both address value _ :=
    ⟨both.1, simulation.change both.2.memory (.observe address value), both.2.host⟩
  act alike act _ := ⟨alike.1, alike.1.memory, congrArg (fun host => (act host).2) alike.1.host⟩

namespace Access

variable {σ τ : Type} [Stage σ] [Stage τ] {may : Allowance} {terms : Terms σ τ}
  (simulation : Stage.Simulation may terms)

include simulation

theorem resolve_lockstep (key : CellRef) :
    Lockstep terms AnyError (resolve key) (resolve key) := by
  intro s t start
  unfold resolve
  rw [Memory.resolve_congr (simulation.symbols start) key]
  exact .of_eq start _

theorem changeMemory_lockstep {ε : Type} (change : Memory.Change)
    (direct : change.isDirect = true) (allowed : may.change change) :
    Lockstep terms (ε := ε) AnyError (changeMemory change.apply) (changeMemory change.apply) :=
  fun _ _ start => .ok (simulation.change start change direct allowed)

theorem onHost_lockstep {ε : Type} {act : Host → Word × Host} (allowed : may.act act) :
    Lockstep terms (ε := ε) AnyError (onHost act) (onHost act) := by
  intro s t start
  unfold onHost
  rw [simulation.host start]
  exact .ok (simulation.act start act allowed)

theorem installRead_lockstep (key : CellRef) {trigger : ReadTrigger}
    (allowed : ∀ address, may.change (.setReadTrigger address trigger)) :
    Lockstep terms AnyError (installRead key trigger) (installRead key trigger) := by
  apply (resolve_lockstep simulation key).bind
  intro address
  exact changeMemory_lockstep simulation (.setReadTrigger address trigger) rfl (allowed address)

theorem installWrites_lockstep (key : CellRef) {triggers : List WriteTrigger} {overwrite : Bool}
    (allowed : ∀ address, may.change (.addWriteTriggers address triggers overwrite)) :
    Lockstep terms AnyError (installWrites key triggers overwrite)
      (installWrites key triggers overwrite) := by
  apply (resolve_lockstep simulation key).bind
  intro address
  exact changeMemory_lockstep simulation (.addWriteTriggers address triggers overwrite) rfl
    (allowed address)

theorem readVia_lockstep {call : ReadTrigger → Action σ MemoryError Word}
    {other : ReadTrigger → Action τ MemoryError Word}
    (calls : ∀ trigger, Lockstep terms AnyError (call trigger) (other trigger)) (key : CellRef) :
    Lockstep terms AnyError (readVia call key) (readVia other key) := by
  apply (resolve_lockstep simulation key).bind
  intro address
  apply Lockstep.get_bind
  intro s t start
  rw [← simulation.readTrigger start address]
  cases found : (Stage.world s).memory.readTrigger address with
  | none =>
    -- Only here is a stored value looked at, and no trigger hides it.
    simp only [simulation.peek start address found]
    exact Lockstep.pure _ s t start
  | some trigger =>
    apply (calls trigger s t start).bind_from
    intro value s' t' goes
    have triggered : (Stage.world s).memory.readTrigger address ≠ none := by
      rw [found]
      exact nofun
    exact .ok (simulation.observe goes address value triggered)

theorem writeVia_lockstep {call : WriteTrigger → Word → Action σ MemoryError Unit}
    {other : WriteTrigger → Word → Action τ MemoryError Unit}
    (calls : ∀ trigger value, Lockstep terms AnyError (call trigger value) (other trigger value))
    (key : CellRef) (value : Word) :
    Lockstep terms AnyError (writeVia call key value) (writeVia other key value) := by
  apply (resolve_lockstep simulation key).bind
  intro address
  have recorded : Lockstep terms (ε := MemoryError) AnyError (record address value)
      (record address value) := fun _ _ start => .ok (simulation.record start address value)
  apply recorded.bind
  intro _
  apply Lockstep.get_bind
  intro s t start
  rw [simulation.writeTriggers start address]
  exact Lockstep.forM (fun trigger => calls trigger value) _ s t start

theorem followVia_lockstep {onRead : ReadTrigger → Action σ MemoryError Word}
    {onWrite : WriteTrigger → Word → Action σ MemoryError Unit}
    {otherRead : ReadTrigger → Action τ MemoryError Word}
    {otherWrite : WriteTrigger → Word → Action τ MemoryError Unit}
    (reads : ∀ trigger, Lockstep terms AnyError (onRead trigger) (otherRead trigger))
    (writes : ∀ trigger value,
      Lockstep terms AnyError (onWrite trigger value) (otherWrite trigger value))
    {script : Script} (respects : script.Respects may) :
    Lockstep terms AnyError (followVia onRead onWrite script)
      (followVia otherRead otherWrite script) := by
  induction script with
  | done answer => exact Lockstep.pure answer
  | fail error => exact Lockstep.throw True.intro
  | read key next ih =>
    apply (readVia_lockstep simulation reads key).outcome.bind
    intro outcome
    exact ih outcome (respects outcome)
  | write key value next ih =>
    apply (writeVia_lockstep simulation writes key value).outcome.bind
    intro outcome
    exact ih outcome (respects outcome)
  | poke address value next ih =>
    apply (changeMemory_lockstep simulation (.poke address value) rfl respects.1).bind
    intro _
    exact ih respects.2
  | bind name address next ih =>
    apply (changeMemory_lockstep simulation (.bind name address) rfl respects.1).bind
    intro _
    exact ih respects.2
  | onRead key trigger next ih =>
    apply (installRead_lockstep simulation key respects.1).outcome.bind
    intro outcome
    exact ih outcome (respects.2 outcome)
  | onWrite key triggers overwrite next ih =>
    apply (installWrites_lockstep simulation key respects.1).outcome.bind
    intro outcome
    exact ih outcome (respects.2 outcome)
  | host act next ih =>
    apply (onHost_lockstep simulation respects.1).bind
    intro word
    exact ih word (respects.2 word)

variable {wiring : Wiring} (respects : wiring.Respects may)

include respects

theorem follow_lockstep {depth deeper : Nat} (spans : terms.Spans depth deeper) {script : Script}
    (own : script.Respects may) :
    Lockstep terms AnyError (follow wiring depth script) (follow wiring deeper script) := by
  induction depth generalizing deeper script with
  | zero =>
    intro s t _
    -- A depth that is used up has no outcome, and on the right only the same depth is.
    refine .lacking simulation.lacks ?_
    rcases spans with rfl | ⟨alone, -⟩
    · exact .inr rfl
    · exact .inl alone
  | succ depth ih =>
    obtain ⟨deeper, rfl⟩ : ∃ less, deeper = less + 1 := by
      rcases spans with rfl | ⟨-, le⟩
      · exact ⟨depth, rfl⟩
      · exact ⟨deeper - 1, by omega⟩
    have inner : terms.Spans depth deeper :=
      spans.imp Nat.succ.inj (And.imp_right Nat.le_of_succ_le_succ)
    apply followVia_lockstep simulation _ _ own
    · intro trigger
      exact ih inner (respects.onRead trigger)
    · intro trigger value
      exact (ih inner (respects.onWrite trigger value)).bind fun _ => Lockstep.pure ()

variable {depth deeper : Nat} (spans : terms.Spans depth deeper)

include spans

theorem read_lockstep (key : CellRef) :
    Lockstep terms AnyError (read wiring depth key) (read wiring deeper key) := by
  apply readVia_lockstep simulation
  intro trigger
  exact follow_lockstep simulation respects spans (respects.onRead trigger)

theorem write_lockstep (key : CellRef) (value : Word) :
    Lockstep terms AnyError (write wiring depth key value) (write wiring deeper key value) := by
  apply writeVia_lockstep simulation
  intro trigger value
  exact (follow_lockstep simulation respects spans (respects.onWrite trigger value)).bind
    fun _ => Lockstep.pure ()

end Access

end MoveMachine
