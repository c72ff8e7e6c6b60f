import Mathlib.Algebra.Group.Nat.Defs
import MoveMachine.Proofs.Loading

/-!
Why and how a load is refused. A load looks at literals one after another: by ascending address
of the description, at its value before the items of its block, and at these in order. The first
that is refused decides the error: an item that falls past the last address, whatever it is, or
else a reference to a name without an address that a word can hold. Nothing else is refused, and
what was staged before is dropped, so that a machine goes on as if it had never been asked.
-/

set_option autoImplicit false

namespace MoveMachine

def refusal? {ε α : Type} : Except ε α → Option ε
  | .error error => some error
  | .ok _ => none

theorem refusal?_eq_some_iff {ε α : Type} {outcome : Except ε α} {error : ε} :
    refusal? outcome = some error ↔ outcome = .error error := by
  cases outcome <;> simp [refusal?]

theorem refusal?_bind {ε α β : Type} {first : Except ε α} {next : α → Except ε β}
    {rest : Option ε} (goesOn : ∀ answer, first = .ok answer → refusal? (next answer) = rest) :
    refusal? (first >>= next) = (refusal? first).or rest := by
  cases first with
  | error error => rfl
  | ok answer => exact goesOn answer rfl

theorem refusal?_map {ε α β : Type} (outcome : Except ε α) (change : α → β) :
    refusal? (change <$> outcome) = refusal? outcome := by
  cases outcome <;> rfl

theorem refusal?_mapM {ε α β : Type} (f : α → Except ε β) (items : List α) :
    refusal? (items.mapM f) = items.findSome? fun item => refusal? (f item) := by
  induction items with
  | nil => rfl
  | cons item items ih =>
    rw [List.mapM_cons, ← List.singleton_append, List.findSome?_append,
      List.findSome?_singleton, ← ih]
    apply refusal?_bind
    intro answer _
    exact refusal?_map (items.mapM f) (answer :: ·)

theorem refusal?_mapM_option {ε α β : Type} (f : α → Except ε β) (item? : Option α) :
    refusal? (item?.mapM f) = item?.toList.findSome? fun item => refusal? (f item) := by
  cases item? with
  | none => rfl
  | some item => exact (refusal?_map (f item) some).trans List.findSome?_singleton.symm

/-- A name that no word can stand for: it is unbound, or bound in the upper half of addresses. -/
def SymbolTable.Dangling (symbols : SymbolTable) (name : String) : Prop :=
  ∀ address, symbols.resolve name = some address → 2 ^ 63 ≤ address.toNat

structure Position where
  /-- The address of the description. -/
  base : Address
  /-- The index of an item of its block, or none for its value. -/
  item : Option Nat

namespace Position

/-- The order in which a load looks at positions. -/
def Before (position other : Position) : Prop :=
  position.base < other.base ∨ position.base = other.base ∧ position.item < other.item

def Fits (position : Position) : Prop := position.base.toNat + position.item.getD 0 < 2 ^ 64

theorem Before.asymm {position other : Position} (before : position.Before other) :
    ¬ other.Before position := by
  rcases before with lower | ⟨same, earlier⟩ <;> rintro (lower' | ⟨same', earlier'⟩)
  · exact UInt64.lt_asymm lower lower'
  · rw [same'] at lower
    exact UInt64.lt_irrefl _ lower
  · rw [same] at lower'
    exact UInt64.lt_irrefl _ lower'
  · cases place : position.item <;> cases place' : other.item <;>
      simp [place, place'] at earlier earlier'
    omega

end Position

namespace Config

def Holds (config : Config) (position : Position) (literal : Literal) : Prop :=
  ∃ cell, config.get? position.base = some cell ∧
    match position.item with
    | none => cell.value = some (.literal literal)
    | some index => ∃ block, cell.values = some block ∧
        (block.valuesAt position.base)[index]? = some literal

/-- A position at which a configuration cannot be loaded, and the error that says so. -/
inductive Fault (config : Config) (symbols : SymbolTable) : Position → ConfigError → Prop
  | dangling {position : Position} {name : String} :
      config.Holds position (.symbolRef name) → position.Fits → symbols.Dangling name →
      Fault config symbols position (.invalidLiteral ("@" ++ name))
  | beyond {position : Position} {literal : Literal} :
      config.Holds position literal → ¬ position.Fits →
      Fault config symbols position (.malformedBlock position.base)

/-- The literals of a description with their positions, in the order in which a load looks. -/
def literalsAt (base : Address) (cell : CellConfig) : List (Position × Literal) :=
  cell.literal?.toList.map (fun literal => (⟨base, none⟩, literal)) ++
    (cell.items base).zipIdx.map fun item => (⟨base, some item.2⟩, item.1)

def literals (config : Config) : List (Position × Literal) :=
  config.toList.flatMap fun entry => literalsAt entry.1 entry.2

def faultOf? (symbols : SymbolTable) (look : Position × Literal) : Option ConfigError :=
  if look.1.base.toNat + look.1.item.getD 0 < 2 ^ 64 then refusal? (look.2.resolve symbols)
  else some (.malformedBlock look.1.base)

theorem faultOf?_congr {symbols other : SymbolTable} {position : Position} {literal : Literal}
    (same : ∀ name, literal = .symbolRef name → symbols.resolve name = other.resolve name) :
    faultOf? symbols (position, literal) = faultOf? other (position, literal) := by
  simp only [faultOf?, Literal.resolve_congr same]

private theorem refusal?_placeValues (base : Address) (placed : Nat) (values : List Literal)
    (memory : Memory) :
    refusal? (placeValues base placed values memory) =
      ((values.zipIdx placed).map fun item => (⟨base, some item.2⟩, item.1)).findSome?
        (faultOf? memory.symbols) := by
  induction values generalizing placed memory with
  | nil => rfl
  | cons literal values ih =>
    rw [List.zipIdx_cons, List.map_cons, List.findSome?_cons, placeValues, faultOf?]
    by_cases fits : base.toNat + placed < 2 ^ 64
    · have found : Address.ofNat? (base.toNat + placed) = some (.ofNat (base.toNat + placed)) :=
        if_pos fits
      simp only [found, Option.getD_some, if_pos fits]
      cases literal.resolve memory.symbols with
      | error error => rfl
      | ok word => exact ih (placed + 1) (memory.poke _ word)
    · have missing : Address.ofNat? (base.toNat + placed) = none := if_neg fits
      simp only [missing, Option.getD_some, if_neg fits]
      rfl

private theorem refusal?_placeValue (base : Address) (cell : CellConfig) (memory : Memory) :
    refusal? (placeValue base cell.value memory) =
      (cell.literal?.toList.map fun literal => (⟨base, none⟩, literal)).findSome?
        (faultOf? memory.symbols) := by
  have fits : base.toNat < 2 ^ 64 := base.toNat_lt
  unfold CellConfig.literal?
  match cell.value with
  | none => rfl
  | some (.computed trigger) => rfl
  | some (.literal literal) =>
    have looked : faultOf? memory.symbols (⟨base, none⟩, literal) =
        refusal? (literal.resolve memory.symbols) := if_pos fits
    simp only [placeValue, Option.toList_some, List.map_cons, List.map_nil, List.findSome?_cons,
      List.findSome?_nil, looked]
    cases literal.resolve memory.symbols <;> rfl

private theorem refusal?_applyCell (base : Address) (cell : CellConfig) (memory : Memory) :
    refusal? (applyCell base cell memory) =
      (literalsAt base cell).findSome? (faultOf? memory.symbols) := by
  have value := refusal?_placeValue base cell (installTriggers base cell memory)
  rw [symbols_installTriggers] at value
  rw [applyCell_eq_bind, literalsAt, List.findSome?_append, ← value]
  apply refusal?_bind
  intro after placed
  rw [refusal?_placeValues, (placeValue_eq_ok placed).1, symbols_installTriggers]

/-- A load is refused as the first literal that it refuses. -/
theorem refusal?_load (config : Config) (memory : Memory) :
    refusal? (config.load memory) =
      config.literals.findSome? (faultOf? (config.bindSymbols memory).symbols) := by
  unfold load literals
  generalize config.bindSymbols memory = start
  induction config.toList generalizing start with
  | nil => rfl
  | cons entry entries ih =>
    rw [List.foldlM_cons, List.flatMap_cons, List.findSome?_append, ← refusal?_applyCell]
    apply refusal?_bind
    intro middle applied
    rw [ih, (applyCell_eq_ok applied).1]

theorem mem_literals_iff {config : Config} {position : Position} {literal : Literal} :
    (position, literal) ∈ config.literals ↔ config.Holds position literal := by
  obtain ⟨base, item⟩ := position
  simp only [literals, literalsAt, List.mem_flatMap, List.mem_append, List.mem_map,
    Option.mem_toList, Prod.exists, mem_toList_iff, Holds, List.mem_zipIdx_iff_getElem?]
  constructor
  · rintro ⟨place, cell, described, ⟨value, own, same⟩ | ⟨value, index, listed, same⟩⟩
    · cases same
      exact ⟨cell, described, CellConfig.literal?_eq_some_iff.1 own⟩
    · cases same
      refine ⟨cell, described, ?_⟩
      unfold CellConfig.items at listed
      cases values : cell.values with
      | none => simp [values] at listed
      | some block => exact ⟨block, rfl, by simpa [values] using listed⟩
  · rintro ⟨cell, described, held⟩
    refine ⟨base, cell, described, ?_⟩
    cases item with
    | none => exact .inl ⟨literal, CellConfig.literal?_eq_some_iff.2 held, rfl⟩
    | some index =>
      obtain ⟨block, values, listed⟩ := held
      exact .inr ⟨literal, index, by simpa [CellConfig.items, values] using listed, rfl⟩

/-- A load succeeds exactly if it refuses no literal under the symbols that it has bound. -/
theorem exists_load_iff {config : Config} {memory : Memory} :
    (∃ after, config.load memory = .ok after) ↔
      ∀ position literal, config.Holds position literal →
        faultOf? (config.bindSymbols memory).symbols (position, literal) = none := by
  have refused := refusal?_load config memory
  have passed : (∃ after, config.load memory = .ok after) ↔
      refusal? (config.load memory) = none := by
    cases config.load memory <;> simp [refusal?]
  rw [passed, refused, List.findSome?_eq_none_iff]
  simp only [Prod.forall, mem_literals_iff]

theorem literals_ascending (config : Config) :
    config.literals.Pairwise fun look later => look.1.Before later.1 := by
  have ascending : Sparse.Ascending config.toList := Sparse.ascending_toList config.cells
  refine List.pairwise_flatMap.2 ⟨fun entry _ => ?_, ascending.imp ?_⟩
  · have counted : ((entry.2.items entry.1).zipIdx.map Prod.snd).Pairwise (· < ·) := by
      rw [List.zipIdx_map_snd]
      exact List.pairwise_lt_range'
    refine List.pairwise_append.2 ⟨?_, ?_, ?_⟩
    · cases entry.2.literal? <;> simp
    · refine List.pairwise_map.2 ((List.pairwise_map.1 counted).imp fun below => ?_)
      exact .inr ⟨rfl, below⟩
    · intro look value later item
      obtain ⟨literal, -, rfl⟩ := List.mem_map.1 value
      obtain ⟨item, -, rfl⟩ := List.mem_map.1 item
      exact .inr ⟨rfl, True.intro⟩
  · have based : ∀ entry : Address × CellConfig, ∀ look ∈ literalsAt entry.1 entry.2,
        look.1.base = entry.1 := by
      intro entry look listed
      rcases List.mem_append.1 listed with value | item
      · obtain ⟨literal, -, rfl⟩ := List.mem_map.1 value
        rfl
      · obtain ⟨item, -, rfl⟩ := List.mem_map.1 item
        rfl
    intro entry next below look listed later listed'
    left
    rw [based entry look listed, based next later listed']
    exact below

end Config

theorem Word.ofAddress?_eq_none_iff {address : Address} :
    Word.ofAddress? address = none ↔ 2 ^ 63 ≤ address.toNat := by
  have signed : address.toInt64.toInt = (address.toNat : Int).bmod (2 ^ 64) :=
    address.toBitVec.toInt_eq_toNat_bmod
  have below := address.toNat_lt
  have negative : Word.ofAddress? address = none ↔ ¬ 0 ≤ address.toInt64 := by
    simp [Word.ofAddress?]
  rw [negative, Int64.le_iff_toInt_le, signed, Int64.toInt_zero, Int.bmod_def]
  omega

theorem Literal.resolve_eq_error_iff {symbols : SymbolTable} {literal : Literal}
    {error : ConfigError} :
    literal.resolve symbols = .error error ↔
      ∃ name, literal = .symbolRef name ∧ symbols.Dangling name ∧
        error = .invalidLiteral ("@" ++ name) := by
  cases literal with
  | number value => simp [resolve]
  | char value => simp [resolve]
  | symbolRef name =>
    have dangling : (symbols.resolve name).bind Word.ofAddress? = none ↔ symbols.Dangling name := by
      unfold SymbolTable.Dangling
      cases symbols.resolve name <;> simp [Word.ofAddress?_eq_none_iff]
    cases found : (symbols.resolve name).bind Word.ofAddress? with
    | none => simp [resolve, found, dangling.1 found, eq_comm]
    | some word =>
      have named : ¬ symbols.Dangling name := by
        rw [← dangling, found]
        exact Option.some_ne_none word
      simp [resolve, found, named]

namespace Config

private theorem faultOf?_eq_some_iff {config : Config} {symbols : SymbolTable}
    {position : Position} {error : ConfigError} :
    (∃ literal, (position, literal) ∈ config.literals ∧
      faultOf? symbols (position, literal) = some error) ↔ config.Fault symbols position error := by
  constructor
  · rintro ⟨literal, listed, refused⟩
    have held := mem_literals_iff.1 listed
    unfold faultOf? at refused
    split at refused
    · rename_i fits
      rw [refusal?_eq_some_iff, Literal.resolve_eq_error_iff] at refused
      obtain ⟨name, rfl, dangling, rfl⟩ := refused
      exact .dangling held fits dangling
    · rename_i beyond
      cases refused
      exact .beyond held beyond
  · rintro (⟨held, fits, dangling⟩ | ⟨held, beyond⟩)
    · refine ⟨_, mem_literals_iff.2 held, (if_pos fits).trans ?_⟩
      exact refusal?_eq_some_iff.2 (Literal.resolve_eq_error_iff.2 ⟨_, rfl, dangling, rfl⟩)
    · exact ⟨_, mem_literals_iff.2 held, if_neg beyond⟩

theorem findSome?_eq_some_iff_first {α β : Type} {R : α → α → Prop}
    (asymm : ∀ a b, R a b → ¬ R b a) {items : List α} (ascending : items.Pairwise R)
    {test : α → Option β} {answer : β} :
    items.findSome? test = some answer ↔
      ∃ item ∈ items, test item = some answer ∧
        ∀ other ∈ items, ∀ found, test other = some found → ¬ R other item := by
  rw [List.findSome?_eq_some_iff]
  constructor
  · rintro ⟨earlier, item, later, rfl, found, missed⟩
    obtain ⟨-, behind, -⟩ := List.pairwise_append.1 ascending
    refine ⟨item, by simp, found, fun other listed seen tested before => ?_⟩
    rcases List.mem_append.1 listed with early | late
    · rw [missed other early] at tested
      cases tested
    · rcases List.mem_cons.1 late with rfl | late
      · exact asymm _ _ before before
      · exact asymm _ _ before ((List.pairwise_cons.1 behind).1 other late)
  · rintro ⟨item, listed, found, first⟩
    obtain ⟨earlier, later, rfl⟩ := List.append_of_mem listed
    obtain ⟨-, -, before⟩ := List.pairwise_append.1 ascending
    refine ⟨earlier, item, later, rfl, found, fun other early => ?_⟩
    rw [Option.eq_none_iff_forall_ne_some]
    intro seen tested
    exact first other (by simp [early]) seen tested (before other early item (by simp))

private theorem load_eq_error_iff {config : Config} {memory : Memory} {error : ConfigError} :
    config.load memory = .error error ↔
      ∃ position, config.Fault (config.bindSymbols memory).symbols position error ∧
        ∀ other reason, config.Fault (config.bindSymbols memory).symbols other reason →
          ¬ other.Before position := by
  have asymm : ∀ look later : Position × Literal,
      look.1.Before later.1 → ¬ later.1.Before look.1 := fun look later => Position.Before.asymm
  rw [← refusal?_eq_some_iff, refusal?_load,
    findSome?_eq_some_iff_first asymm config.literals_ascending]
  simp only [← faultOf?_eq_some_iff, Prod.exists, Prod.forall]
  constructor
  · rintro ⟨position, literal, listed, refused, first⟩
    refine ⟨position, ⟨literal, listed, refused⟩, ?_⟩
    rintro other reason ⟨content, listed, refused⟩
    exact first other content listed reason refused
  · rintro ⟨position, ⟨literal, listed, refused⟩, first⟩
    refine ⟨position, literal, listed, refused, fun other content listed reason refused => ?_⟩
    exact first other reason ⟨content, listed, refused⟩

private theorem exists_error_iff {config : Config} {memory : Memory} :
    (∃ error, config.load memory = .error error) ↔
      ∃ position error, config.Fault (config.bindSymbols memory).symbols position error := by
  constructor
  · rintro ⟨error, refused⟩
    obtain ⟨position, fault, -⟩ := load_eq_error_iff.1 refused
    exact ⟨position, error, fault⟩
  · rintro ⟨position, error, fault⟩
    obtain ⟨literal, listed, refused⟩ := faultOf?_eq_some_iff.2 fault
    cases outcome : config.load memory with
    | error reason => exact ⟨reason, rfl⟩
    | ok after =>
      have passed := refusal?_load config memory
      rw [outcome, eq_comm] at passed
      rw [List.findSome?_eq_none_iff.1 passed _ listed] at refused
      cases refused

private theorem exists_fault_iff {config : Config} {symbols : SymbolTable} :
    (∃ position error, config.Fault symbols position error) ↔
      (∃ position name, config.Holds position (.symbolRef name) ∧ symbols.Dangling name) ∨
      ∃ base cell block, config.get? base = some cell ∧ cell.values = some block ∧
        2 ^ 64 - base.toNat < (block.valuesAt base).length := by
  constructor
  · rintro ⟨position, error, ⟨held, -, dangling⟩ | ⟨held, beyond⟩⟩
    · exact .inl ⟨position, _, held, dangling⟩
    · right
      obtain ⟨base, item⟩ := position
      obtain ⟨cell, described, held⟩ := held
      have below := base.toNat_lt
      cases item with
      | none => exact absurd below beyond
      | some index =>
        obtain ⟨block, values, listed⟩ := held
        have short : index < (block.valuesAt base).length := (List.getElem?_eq_some_iff.1 listed).1
        simp only [Position.Fits, Option.getD_some] at beyond
        exact ⟨base, cell, block, described, values, by omega⟩
  · rintro (⟨position, name, held, dangling⟩ | ⟨base, cell, block, described, values, long⟩)
    · by_cases fits : position.Fits
      · exact ⟨position, _, .dangling held fits dangling⟩
      · exact ⟨position, _, .beyond held fits⟩
    · have below := base.toNat_lt
      have listed : (block.valuesAt base)[2 ^ 64 - base.toNat]? = some _ :=
        List.getElem?_eq_getElem long
      refine ⟨⟨base, some (2 ^ 64 - base.toNat)⟩, _,
        .beyond ⟨cell, described, block, values, listed⟩ ?_⟩
      simp only [Position.Fits, Option.getD_some]
      omega

/-- Requests for the triggers of a description, which name its cell by the address. -/
def requestTriggers (base : Address) (cell : CellConfig) : Access MemoryError Unit := do
  cell.onRead.forM fun trigger => Access.installRead (.address base) trigger
  cell.onWrite.forM fun triggers => Access.installWrites (.address base) triggers true
  cell.computed?.forM fun trigger => Access.installRead (.address base) trigger

private theorem requestTriggers_eq (base : Address) (cell : CellConfig) (world : World) :
    ∃ memory,
      placeValue base (cell.computed?.map .computed) (installTriggers base cell world.memory) =
        .ok memory ∧
      requestTriggers base cell world = some (.ok (), { world with memory }) := by
  unfold requestTriggers installTriggers
  cases cell.onRead <;> cases cell.onWrite <;> cases cell.computed? <;> exact ⟨_, rfl, rfl⟩

private theorem performAll_refused {config : Config} {system : System} {error : ConfigError}
    (refused : config.load system.machine.memory = .error error) (wiring : Wiring) (depth : Nat)
    (later : List Request) :
    Request.performAll wiring depth (.configure config :: later) system =
      (Request.performAll wiring depth later system).map
        fun outcome => (.error (.config error) :: outcome.1, outcome.2) := by
  have unmoved : (Request.configure config).perform wiring depth system =
      some (.error (.config error), system) := by
    rw [Request.perform_configure, refused]
  simp only [Request.performAll, unmoved, Option.bind_eq_bind, Option.bind_some]
  cases Request.performAll wiring depth later system <;> rfl

/--
When and how a load fails. It fails exactly if some literal refers to a name that is unbound, or
bound where no word reaches, once all names of the configuration are bound, or if some block runs
past the last address. The error is that of the first fault; so it is a reference or a block, and
never a trigger. A machine that refuses a configuration stays as it is, with its host, and goes
on as if it had not been asked.
-/
theorem load_refused (config : Config) (memory : Memory) :
    let symbols := (config.bindSymbols memory).symbols
    ((∃ error, config.load memory = .error error) ↔
      (∃ position name, config.Holds position (.symbolRef name) ∧ symbols.Dangling name) ∨
      ∃ base cell block, config.get? base = some cell ∧ cell.values = some block ∧
        2 ^ 64 - base.toNat < (block.valuesAt base).length) ∧
    (∀ error, config.load memory = .error error ↔
      ∃ position, config.Fault symbols position error ∧
        ∀ other reason, config.Fault symbols other reason → ¬ other.Before position) ∧
    (∀ error, config.load memory = .error error →
      (∃ name, error = .invalidLiteral ("@" ++ name)) ∨ ∃ base, error = .malformedBlock base) ∧
    (∀ base cell (world : World), ∃ staged,
      placeValue base (cell.computed?.map .computed) (installTriggers base cell world.memory) =
        .ok staged ∧
      requestTriggers base cell world = some (.ok (), { world with memory := staged })) ∧
    ∀ error, config.load memory = .error error →
      ∀ (wiring : Wiring) (depth : Nat) (machine : Machine) (host : Host) (later : List Request),
      machine.memory = memory →
      (Request.configure config).perform wiring depth ⟨machine, host⟩ =
        some (.error (.config error), ⟨machine, host⟩) ∧
      Request.performAll wiring depth (.configure config :: later) ⟨machine, host⟩ =
        (Request.performAll wiring depth later ⟨machine, host⟩).map
          fun outcome => (.error (.config error) :: outcome.1, outcome.2) := by
  intro symbols
  refine ⟨?_, fun error => load_eq_error_iff, ?_, requestTriggers_eq, ?_⟩
  · rw [← exists_fault_iff]
    exact exists_error_iff
  · intro error refused
    obtain ⟨position, fault, -⟩ := load_eq_error_iff.1 refused
    cases fault with
    | dangling => exact .inl ⟨_, rfl⟩
    | beyond => exact .inr ⟨_, rfl⟩
  · rintro error refused wiring depth machine host later rfl
    refine ⟨?_, performAll_refused refused wiring depth later⟩
    rw [Request.perform_configure, refused]

/--
The block at the last address has one item too many, which is refused without a look at the
reference that it is. By then a name has moved, two words are set and the triggers are gone.
-/
theorem load_refused_midway :
    let config := Config.ofList
      [(0, { symbols := ["a"], value := some (.literal (.number 5)), onWrite := some [] }),
        (7, { value := some (.literal (.symbolRef "a")) }),
        (18446744073709551615, { values := some (.items [.number 7, .symbolRef "gone"]) })]
    let memory := (({} : Memory).bind "a" 3).addWriteTriggers 0 [⟨none, 0⟩] false
    config.load memory = .error (.malformedBlock 18446744073709551615) ∧
      (∃ position, config.Fault (config.bindSymbols memory).symbols position
          (.malformedBlock 18446744073709551615) ∧
        ∀ other reason, config.Fault (config.bindSymbols memory).symbols other reason →
          ¬ other.Before position) ∧
      Request.performAll {} 0 [.configure config, .read (.name "a"), .write (.address 0) 1]
          ⟨{ memory }, {}⟩ =
        (Request.performAll {} 0 [.read (.name "a"), .write (.address 0) 1] ⟨{ memory }, {}⟩).map
          fun outcome =>
            (.error (.config (.malformedBlock 18446744073709551615)) :: outcome.1, outcome.2) := by
  intro config memory
  have computed : refusal? (config.load memory) =
      some (.malformedBlock 18446744073709551615) := by decide
  have refused := refusal?_eq_some_iff.1 computed
  obtain ⟨-, faults, -, -, unmoved⟩ := load_refused config memory
  exact ⟨refused, (faults _).1 refused, (unmoved _ refused {} 0 { memory } {} _ rfl).2⟩

end Config

end MoveMachine
