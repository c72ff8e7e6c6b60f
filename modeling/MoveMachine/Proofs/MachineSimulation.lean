import MoveMachine.Request
import MoveMachine.Proofs.Simulation

/-!
From accesses to machines. A machine is made of reads and writes of cells and of the jump test. If
these run in lockstep on two stages, then moves do, and on two benches that hold the stages so do
steps, looks at the pointer, runs and requests. Loading a configuration makes direct changes of
memory only, and looks at nothing but symbols.
-/

set_option autoImplicit false

namespace MoveMachine

open MoveMachine.Action (Terms Agree Lockstep AnyError)

/-- An error of the program's own: it halts, or it uses a word that is no address. -/
def MachineError.OfProgram : MachineError → Prop
  | .halted | .invalidAddress _ => True
  | .budgetExhausted _ | .memory _ => False

def MachineError.OfMemory (error : MachineError) : Prop := ∃ cause, error = .memory cause

section Benches

variable {σ τ ω χ : Type} [Bench σ ω] [Bench τ χ] {inner : Terms ω χ} {terms : Terms σ τ}

open Bench in
/-- Two benches whose stages go on given terms. -/
structure Bench.Simulation (inner : Terms ω χ) (terms : Terms σ τ) : Prop where
  lacks : inner.lacks → terms.lacks
  alone : inner.alone → terms.alone
  place : ∀ {b c}, terms.goes b c b c → ipAddress b = ipAddress c
  take : ∀ {b c}, terms.goes b c b c → inner.goes (stage b) (stage c) (stage b) (stage c)
  back : ∀ {b c}, terms.goes b c b c → ∀ s t, inner.goes (stage b) (stage c) s t →
    terms.goes b c (setStage s b) (setStage t c)
  count : ∀ {b c}, terms.goes b c b c → ∀ made, terms.goes b c (count made b) (count made c)

def Bench.ofStages (inner : Terms ω χ) : Terms σ τ where
  goes b c b' c' := inner.goes (stage b) (stage c) (stage b') (stage c') ∧
    ipAddress b = ipAddress c ∧ ipAddress b' = ipAddress b ∧ ipAddress c' = ipAddress c
  stays both := ⟨inner.stays both.1, by rw [both.2.2.1, both.2.2.2, both.2.1], rfl, rfl⟩
  trans first second := ⟨inner.trans first.1 second.1, first.2.1,
    second.2.2.1.trans first.2.2.1, second.2.2.2.trans first.2.2.2⟩
  lacks := inner.lacks
  alone := inner.alone

theorem Bench.simulation_ofStages (inner : Terms ω χ) :
    Bench.Simulation inner (Bench.ofStages inner : Terms σ τ) where
  lacks := id
  alone := id
  place both := both.2.1
  take both := both.1
  back both s t goes := by
    refine ⟨?_, both.2.1, ipAddress_setStage _ _, ipAddress_setStage _ _⟩
    rw [stage_setStage, stage_setStage]
    exact goes
  count both made := by
    refine ⟨?_, both.2.1, ipAddress_count _ _, ipAddress_count _ _⟩
    rw [stage_count, stage_count]
    exact both.1

theorem Action.onSystem_lockstep (benches : Bench.Simulation inner terms) {ε α : Type}
    {errors : ε → Prop} {access : Action ω ε α} {other : Action χ ε α}
    (lockstep : Lockstep inner errors access other) :
    Lockstep terms errors access.onSystem other.onSystem :=
  lockstep.focus benches.lacks benches.alone (fun _ _ start => benches.take start)
    fun _ _ start => benches.back start

end Benches

namespace Machine

section Stages

variable {σ τ : Type} [Stage σ] [Stage τ] {terms : Terms σ τ} {errors kind : MachineError → Prop}
  {wiring : Wiring} {depth deeper : Nat}

/-- Reads and writes of cells run in lockstep, and a mark of the clock tells the same. -/
structure InStep (terms : Terms σ τ) (errors : MachineError → Prop) (wiring : Wiring)
    (depth deeper : Nat) : Prop where
  read : ∀ address, Lockstep terms errors (readCell wiring depth address)
    (readCell wiring deeper address)
  write : ∀ address value, Lockstep terms errors (writeCell wiring depth address value)
    (writeCell wiring deeper address value)
  writtenSince : ∀ {s t s' t'}, terms.goes s t s' t' → ∀ address,
    (Stage.world s').memory.writtenSince address (Stage.world s).memory.clock =
      (Stage.world t').memory.writtenSince address (Stage.world t).memory.clock

theorem InStep.of_stage {may : Allowance} (simulation : Stage.Simulation may terms)
    (respects : wiring.Respects may) (spans : terms.Spans depth deeper) :
    InStep terms MachineError.OfMemory wiring depth deeper where
  read address := (Access.read_lockstep simulation respects spans address).mapError
    fun cause _ => ⟨cause, rfl⟩
  write address value := (Access.write_lockstep simulation respects spans address value).mapError
    fun cause _ => ⟨cause, rfl⟩
  writtenSince := simulation.writtenSince

theorem InStep.mono (inStep : InStep terms errors wiring depth deeper)
    (weaker : ∀ error, errors error → kind error) : InStep terms kind wiring depth deeper where
  read address := (inStep.read address).mono weaker
  write address value := (inStep.write address value).mono weaker
  writtenSince := inStep.writtenSince

omit [Stage σ] [Stage τ] in
theorem toAddress_lockstep (own : ∀ error : MachineError, error.OfProgram → errors error)
    (word : Word) : Lockstep terms errors (toAddress word) (toAddress word) := by
  unfold toAddress
  cases Address.ofWord? word with
  | none => exact Lockstep.throw (own _ trivial)
  | some address => exact Lockstep.pure address

variable (inStep : InStep terms errors wiring depth deeper)

include inStep

theorem transfer_lockstep (source target : Address) :
    Lockstep terms errors (transfer wiring depth source target)
      (transfer wiring deeper source target) := by
  apply (inStep.read source).bind
  intro value
  apply (inStep.write target value).bind
  intro _
  exact Lockstep.pure value

variable (own : ∀ error : MachineError, error.OfProgram → errors error)

include own

theorem fetch_lockstep (ipAddress : Address) :
    Lockstep terms errors (fetch wiring depth ipAddress) (fetch wiring deeper ipAddress) := by
  apply (inStep.read ipAddress).bind
  intro ipWord
  split
  · exact Lockstep.throw (own _ trivial)
  · apply (toAddress_lockstep own ipWord).bind
    intro ip
    apply (inStep.read ip).bind
    intro sourceWord
    apply (toAddress_lockstep own sourceWord).bind
    intro source
    apply (inStep.read (ip + 1)).bind
    intro targetWord
    apply (toAddress_lockstep own targetWord).bind
    intro target
    exact Lockstep.pure _

theorem advance_lockstep (ipAddress : Address) (ipWord : Word) :
    Lockstep terms errors (advance wiring depth ipAddress ipWord)
      (advance wiring deeper ipAddress ipWord) := by
  unfold advance
  cases Word.ofInt? (ipWord.toInt + 2) with
  | none => exact Lockstep.throw (own _ trivial)
  | some next => exact inStep.write ipAddress next

theorem move_lockstep (ipAddress : Address) :
    Lockstep terms errors (move wiring depth ipAddress) (move wiring deeper ipAddress) := by
  apply (fetch_lockstep inStep own ipAddress).bind
  intro operands
  apply Lockstep.get_bind
  intro s t fetched
  apply (transfer_lockstep inStep operands.source operands.target s t fetched).bind_from
  intro value s' t' moved
  rw [Action.get_bind_apply, Action.get_bind_apply]
  -- The mark was taken at one pair of states, the test is made at what they came to.
  rw [inStep.writtenSince moved ipAddress]
  split
  · exact .ok moved
  · have advanced := advance_lockstep inStep own ipAddress operands.ipWord s' t' (terms.stays moved)
    exact (advanced.bind fun _ => Lockstep.pure _).after moved

end Stages

section Benches

variable {σ τ ω χ : Type} [Bench σ ω] [Bench τ χ] [Stage ω] [Stage χ] {inner : Terms ω χ}
  {terms : Terms σ τ} {errors : MachineError → Prop} {wiring : Wiring} {depth deeper : Nat}
  (benches : Bench.Simulation inner terms) (inStep : InStep inner errors wiring depth deeper)

include benches inStep

theorem step_lockstep (own : ∀ error : MachineError, error.OfProgram → errors error) :
    Lockstep terms errors (step wiring depth) (step wiring deeper) := by
  apply Lockstep.get_bind
  intro b c start
  rw [benches.place start]
  have moved := Action.onSystem_lockstep benches (move_lockstep inStep own (Bench.ipAddress c))
  apply (moved b c start).bind_from
  intro made b' c' after
  exact .ok (terms.trans after (benches.count (terms.stays after) made))

theorem isHalted_lockstep :
    Lockstep terms errors (isHalted wiring depth) (isHalted wiring deeper) := by
  have looked : Lockstep terms errors (ip wiring depth) (ip wiring deeper) := by
    apply Lockstep.get_bind
    intro b c start
    rw [benches.place start]
    exact Action.onSystem_lockstep benches (inStep.read (Bench.ipAddress c)) b c start
  apply looked.bind
  intro word
  exact Lockstep.pure _

theorem run_lockstep (own : ∀ error : MachineError, error.OfProgram → errors error)
    (spent : ∀ steps, errors (.budgetExhausted steps)) (budget : Nat) :
    Lockstep terms errors (run wiring depth budget) (run wiring deeper budget) := by
  unfold run
  -- A run hands on how many moves it has made, so that number is left open.
  generalize 0 = made
  induction budget generalizing made with
  | zero =>
    apply (isHalted_lockstep benches inStep).bind
    intro halted
    split
    · exact Lockstep.pure made
    · exact Lockstep.throw (spent made)
  | succ budget ih =>
    intro b c start
    have stepped := step_lockstep benches inStep own b c start
    unfold run.go
    generalize step wiring depth b = left at stepped
    generalize step wiring deeper c = right at stepped
    cases stepped with
    | ok after => exact (ih (made + 1) _ _ (terms.stays after)).after after
    | @error error _ _ raised after =>
      cases error with
      | halted => exact .ok after
      | budgetExhausted _ | invalidAddress _ | memory _ => exact .error raised after
    | lacking lacks missing =>
      refine .lacking lacks (missing.imp_right ?_)
      rintro rfl
      rfl

end Benches

end Machine

/-- All that loading a configuration may ask for is allowed. -/
structure Config.Respects (may : Allowance) (config : Config) : Prop where
  poke : ∀ address value, may.change (.poke address value)
  bind : ∀ name address, may.change (.bind name address)
  setReadTrigger : ∀ address trigger, may.change (.setReadTrigger address trigger)
  addWriteTriggers : ∀ address cell triggers, config.get? address = some cell →
    cell.onWrite = some triggers → may.change (.addWriteTriggers address triggers true)

theorem Config.respects_all (config : Config) : config.Respects .all :=
  ⟨fun _ _ => trivial, fun _ _ => trivial, fun _ _ => trivial, fun _ _ _ _ _ => trivial⟩

/-- A relation of memories with the same symbols that all keeps which is allowed. -/
structure Memory.DirectSimulation (may : Allowance) (R : Memory → Memory → Prop) : Prop where
  symbols : ∀ {m n}, R m n → m.symbols = n.symbols
  change : ∀ {m n}, R m n → ∀ change : Change, change.isDirect = true → may.change change →
    R (change.apply m) (change.apply n)

namespace Config

/-- Two loads that fail alike or end in related memories. -/
def Alike (R : Memory → Memory → Prop) :
    Except ConfigError Memory → Except ConfigError Memory → Prop
  | .ok m, .ok n => R m n
  | .error error, .error other => error = other
  | _, _ => False

theorem Alike.bind {R : Memory → Memory → Prop} {x y : Except ConfigError Memory}
    {f g : Memory → Except ConfigError Memory} (first : Alike R x y)
    (next : ∀ m n, R m n → Alike R (f m) (g n)) : Alike R (x >>= f) (y >>= g) := by
  cases x with
  | error error =>
    cases y with
    | error other => exact first
    | ok n => exact first.elim
  | ok m =>
    cases y with
    | error other => exact first.elim
    | ok n => exact next m n first

variable {may : Allowance} {R : Memory → Memory → Prop} (direct : Memory.DirectSimulation may R)
  {config : Config} (respects : config.Respects may)

include direct respects

theorem bindSymbols_alike {m n : Memory} (related : R m n) :
    R (config.bindSymbols m) (config.bindSymbols n) := by
  have bound : ∀ (address : Address) (names : List String) {m n : Memory}, R m n →
      R (names.foldl (fun memory name => memory.bind name address) m)
        (names.foldl (fun memory name => memory.bind name address) n) := by
    intro address names
    induction names with
    | nil => exact id
    | cons name names ih =>
      intro m n related
      exact ih (direct.change related (.bind name address) rfl (respects.bind name address))
  unfold bindSymbols
  generalize config.toList = entries
  induction entries generalizing m n with
  | nil => exact related
  | cons entry entries ih => exact ih (bound entry.1 entry.2.symbols related)

theorem installTriggers_alike {address : Address} {cell : CellConfig}
    (found : config.get? address = some cell) {m n : Memory} (related : R m n) :
    R (installTriggers address cell m) (installTriggers address cell n) := by
  have written : ∀ triggers, cell.onWrite = some triggers → ∀ {m n : Memory}, R m n →
      R (m.addWriteTriggers address triggers true) (n.addWriteTriggers address triggers true) := by
    intro triggers listed m n related
    exact direct.change related (.addWriteTriggers address triggers true) rfl
      (respects.addWriteTriggers address cell triggers found listed)
  unfold installTriggers
  cases cell.onRead with
  | none =>
    cases listed : cell.onWrite with
    | none => exact related
    | some triggers => exact written triggers listed related
  | some trigger =>
    have installed := direct.change related (.setReadTrigger address trigger) rfl
      (respects.setReadTrigger address trigger)
    cases listed : cell.onWrite with
    | none => exact installed
    | some triggers => exact written triggers listed installed

theorem placeValue_alike (address : Address) (value : Option CellValue) {m n : Memory}
    (related : R m n) : Alike R (placeValue address value m) (placeValue address value n) := by
  match value with
  | none => exact related
  | some (.computed trigger) =>
    exact direct.change related (.setReadTrigger address trigger) rfl
      (respects.setReadTrigger address trigger)
  | some (.literal literal) =>
    simp only [placeValue, direct.symbols related]
    cases literal.resolve n.symbols with
    | error error => exact rfl
    | ok word => exact direct.change related (.poke address word) rfl (respects.poke address word)

theorem placeValues_alike (base : Address) (literals : List Literal) (placed : Nat)
    {m n : Memory} (related : R m n) :
    Alike R (placeValues base placed literals m) (placeValues base placed literals n) := by
  induction literals generalizing placed m n with
  | nil => exact related
  | cons literal literals ih =>
    simp only [placeValues, direct.symbols related]
    cases Address.ofNat? (base.toNat + placed) with
    | none => exact rfl
    | some target =>
      cases literal.resolve n.symbols with
      | error error => exact rfl
      | ok word =>
        exact ih (placed + 1)
          (direct.change related (.poke target word) rfl (respects.poke target word))

theorem applyCell_alike {address : Address} {cell : CellConfig}
    (found : config.get? address = some cell) {m n : Memory} (related : R m n) :
    Alike R (applyCell address cell m) (applyCell address cell n) := by
  have installed := installTriggers_alike direct respects found related
  apply (placeValue_alike direct respects address cell.value installed).bind
  intro m n related
  cases cell.values with
  | none => exact related
  | some block =>
    exact placeValues_alike direct respects address (block.valuesAt address) 0 related

theorem load_alike {m n : Memory} (related : R m n) : Alike R (config.load m) (config.load n) := by
  have bound := bindSymbols_alike direct respects related
  have described : ∀ entry ∈ config.toList, config.get? entry.1 = some entry.2 :=
    fun _ => mem_toList_iff.1
  unfold load
  generalize config.bindSymbols m = m at bound
  generalize config.bindSymbols n = n at bound
  generalize config.toList = entries at described
  induction entries generalizing m n with
  | nil => exact bound
  | cons entry entries ih =>
    simp only [List.foldlM_cons]
    have found := described entry List.mem_cons_self
    apply (applyCell_alike direct respects found bound).bind
    intro m n related
    exact ih m n related fun other member => described other (List.mem_cons_of_mem _ member)

end Config

theorem Access.configure_lockstep {σ τ : Type} [Stage σ] [Stage τ] {may : Allowance}
    {terms : Terms σ τ} (simulation : Stage.Simulation may terms) {config : Config}
    (respects : config.Respects may) :
    Lockstep terms AnyError (configure config) (configure config) := by
  intro s t start
  -- Memories are related if the two stages may come to hold them.
  let R (m n : Memory) : Prop :=
    terms.goes s t (Stage.changeMemory (fun _ => m) s) (Stage.changeMemory (fun _ => n) t)
  have direct : Memory.DirectSimulation may R := by
    constructor
    · intro m n goes
      have same := simulation.symbols (terms.stays goes)
      simp only [Stage.changeMemory, Stage.world_setWorld] at same
      exact same
    · intro m n goes change direct allowed
      have changed := terms.trans goes (simulation.change (terms.stays goes) change direct allowed)
      simp only [Stage.changeMemory, Stage.world_setWorld, Stage.setWorld_setWorld] at changed
      exact changed
  have related : R (Stage.world s).memory (Stage.world t).memory := by
    change terms.goes s t (Stage.setWorld (Stage.world s) s) (Stage.setWorld (Stage.world t) t)
    rw [Stage.setWorld_world, Stage.setWorld_world]
    exact start
  have loaded := Config.load_alike direct respects related
  unfold configure
  generalize config.load (Stage.world s).memory = left at loaded
  generalize config.load (Stage.world t).memory = right at loaded
  cases left with
  | error error =>
    cases right with
    | error other =>
      obtain rfl : error = other := loaded
      exact .error trivial start
    | ok n => exact loaded.elim
  | ok m =>
    cases right with
    | error other => exact loaded.elim
    | ok n => exact .ok loaded

namespace Request

/-- All that a request itself asks for is allowed. -/
def Respects (may : Allowance) : Request → Prop
  | .poke place value => may.change (.poke place value)
  | .bind name place => may.change (.bind name place)
  | .installRead _ trigger => ∀ address, may.change (.setReadTrigger address trigger)
  | .installWrites _ triggers overwrite =>
    ∀ address, may.change (.addWriteTriggers address triggers overwrite)
  | .configure config => config.Respects may
  | .read _ | .write _ _ | .step | .run _ => True

theorem respects_all (request : Request) : request.Respects .all := by
  cases request with
  | configure config => exact config.respects_all
  | installRead | installWrites => exact fun _ => trivial
  | read | write | poke | bind | step | run => exact trivial

section Benches

variable {σ τ ω χ : Type} {inner : Terms ω χ} {terms : Terms σ τ}

theorem operate_lockstep {α : Type} (reply : α → Reply) {errors : MachineError → Prop}
    {operation : Action σ MachineError α} {other : Action τ MachineError α}
    (lockstep : Lockstep terms errors operation other) :
    Lockstep terms AnyError (operate reply operation) (operate reply other) := by
  have told : Lockstep terms AnyError (operation.mapError RequestError.machine)
      (other.mapError RequestError.machine) := lockstep.mapError fun _ _ => trivial
  apply told.bind
  intro answer
  exact Lockstep.pure _

variable [Bench σ ω] [Bench τ χ] (benches : Bench.Simulation inner terms)

include benches

theorem access_lockstep {ε α : Type} (refuse : ε → RequestError) (reply : α → Reply)
    {access : Action ω ε α} {other : Action χ ε α}
    (lockstep : Lockstep inner AnyError access other) :
    Lockstep terms AnyError (Request.access refuse reply access)
      (Request.access refuse reply other) := by
  have told : Lockstep inner AnyError (access.mapError refuse) (other.mapError refuse) :=
    lockstep.mapError fun _ _ => trivial
  apply (Action.onSystem_lockstep benches told).bind
  intro answer
  exact Lockstep.pure _

/-- A request runs in lockstep on benches whose stages simulate each other. -/
theorem perform_lockstep [Stage ω] [Stage χ] {may : Allowance}
    (simulation : Stage.Simulation may inner) {wiring : Wiring} (respects : wiring.Respects may)
    {depth deeper : Nat} (spans : inner.Spans depth deeper) {request : Request}
    (own : request.Respects may) :
    Lockstep terms AnyError (request.perform wiring depth) (request.perform wiring deeper) := by
  have inStep : Machine.InStep inner AnyError wiring depth deeper :=
    (Machine.InStep.of_stage simulation respects spans).mono fun _ _ => trivial
  cases request with
  | read key =>
    exact access_lockstep benches _ _ (Access.read_lockstep simulation respects spans key)
  | write key value =>
    exact access_lockstep benches _ _ (Access.write_lockstep simulation respects spans key value)
  | poke place value =>
    exact access_lockstep benches _ _
      (Access.changeMemory_lockstep simulation (.poke place value) rfl own)
  | bind name place =>
    exact access_lockstep benches _ _
      (Access.changeMemory_lockstep simulation (.bind name place) rfl own)
  | installRead key trigger =>
    exact access_lockstep benches _ _ (Access.installRead_lockstep simulation key own)
  | installWrites key triggers overwrite =>
    exact access_lockstep benches _ _ (Access.installWrites_lockstep simulation key own)
  | configure config =>
    exact access_lockstep benches _ _ (Access.configure_lockstep simulation own)
  | step => exact operate_lockstep _ (Machine.step_lockstep benches inStep fun _ _ => trivial)
  | run budget =>
    exact operate_lockstep _
      (Machine.run_lockstep benches inStep (fun _ _ => trivial) (fun _ => trivial) budget)

end Benches

end Request

/-- Related memories beside the same host, with the instruction pointer in one place. -/
structure System.Alike (R : Memory → Memory → Prop) (left right : System) : Prop where
  ipAddress : left.machine.ipAddress = right.machine.ipAddress
  world : World.Alike R left.world right.world

namespace Request

/-- The same replies in systems that end alike, or no outcome of either history. -/
def Indistinguishable (R : Memory → Memory → Prop) :
    Option (List (Except RequestError Reply) × System) →
      Option (List (Except RequestError Reply) × System) → Prop :=
  Option.Rel fun left right => left.1 = right.1 ∧ System.Alike R left.2 right.2

theorem Indistinguishable.mono {R S : Memory → Memory → Prop}
    {x y : Option (List (Except RequestError Reply) × System)}
    (same : Indistinguishable R x y) (weaker : ∀ m n, R m n → S m n) :
    Indistinguishable S x y := by
  cases same with
  | none => exact .none
  | some both =>
    obtain ⟨replies, alike⟩ := both
    exact .some ⟨replies, alike.ipAddress, weaker _ _ alike.world.memory, alike.world.host⟩

variable {R : Memory → Memory → Prop} (simulation : Memory.Simulation R)

include simulation

theorem perform_alike (wiring : Wiring) (depth : Nat) (request : Request) :
    Lockstep (Terms.alike (System.Alike R)) AnyError (request.perform wiring depth)
      (request.perform wiring depth) := by
  have benches : Bench.Simulation (Terms.alike (World.Alike R)) (Terms.alike (System.Alike R)) :=
    { lacks := id
      alone := id
      place := fun alike => alike.1.ipAddress
      take := fun alike => ⟨alike.1.world, alike.1.world⟩
      back := fun alike _ _ both => ⟨alike.1, alike.1.ipAddress, both.2⟩
      count := fun alike _ => ⟨alike.1, alike.1.ipAddress, alike.1.world⟩ }
  exact perform_lockstep benches simulation.stage wiring.respects_all (.inl rfl)
    request.respects_all

/-- A history has the same replies on both sides and keeps a simulation. -/
theorem performAll_alike (wiring : Wiring) (depth : Nat) (requests : List Request)
    {left right : System} (alike : System.Alike R left right) :
    Indistinguishable R (performAll wiring depth requests left)
      (performAll wiring depth requests right) := by
  induction requests generalizing left right with
  | nil => exact .some ⟨rfl, alike⟩
  | cons request requests ih =>
    have performed :=
      (perform_alike simulation wiring depth request left right ⟨alike, alike⟩).rel id
    simp only [performAll]
    generalize request.perform wiring depth left = leftOutcome at performed
    generalize request.perform wiring depth right = rightOutcome at performed
    cases performed with
    | none => exact .none
    | @some leftOutcome rightOutcome both =>
      obtain ⟨result, left⟩ := leftOutcome
      obtain ⟨other, right⟩ := rightOutcome
      obtain ⟨rfl, -, after⟩ := both
      have rest := ih after
      simp only [Option.bind_eq_bind, Option.bind_some]
      generalize performAll wiring depth requests left = leftRest at rest
      generalize performAll wiring depth requests right = rightRest at rest
      cases rest with
      | none => exact .none
      | some both => exact .some ⟨congrArg (result :: ·) both.1, both.2⟩

end Request

end MoveMachine
