import MoveMachine.Request
import MoveMachine.Proofs.Entries
import MoveMachine.Proofs.Snapshot

/-!
What loading a configuration does. Every description acts on each cell by itself: it sets the
word of the literal that it places there, if any, and at its own address installs its triggers.
A load that succeeds is the fold of these actions by ascending address, under the symbols that
all descriptions together have bound.

So the description with the greatest address decides: among those that declare a name, where
the name belongs, and among those that place a literal at an address, what is stored there.
Blocks may run over later descriptions in any way, and references may look ahead.
-/

set_option autoImplicit false

namespace MoveMachine

theorem eq_ok_of_toOption {ε α : Type} {result : Except ε α} {value : α}
    (found : result.toOption = some value) : result = .ok value := by
  cases result with
  | error error => cases found
  | ok answer => exact congrArg Except.ok (Option.some.inj found)

/-- The word of a literal, if it has one under the symbols of a table. -/
def Literal.word? (symbols : SymbolTable) (literal : Literal) : Option Word :=
  (literal.resolve symbols).toOption

theorem Literal.resolve_congr {symbols other : SymbolTable} {literal : Literal}
    (same : ∀ name, literal = .symbolRef name → symbols.resolve name = other.resolve name) :
    literal.resolve symbols = literal.resolve other := by
  cases literal with
  | number value => rfl
  | char value => rfl
  | symbolRef name => rw [resolve, resolve, same name rfl]

/-- The item of a run of values that falls on an address, if the run starts at a number. -/
def itemAt (values : List Literal) (start : Nat) (place : Address) : Option Literal :=
  if start ≤ place.toNat then values[place.toNat - start]? else none

theorem itemAt_cons (value : Literal) (values : List Literal) (start : Nat) (place : Address) :
    itemAt (value :: values) start place =
      if start = place.toNat then some value else itemAt values (start + 1) place := by
  unfold itemAt
  by_cases same : start = place.toNat
  · rw [if_pos same, if_pos (Nat.le_of_eq same), same, Nat.sub_self, List.getElem?_cons_zero]
  · rw [if_neg same]
    by_cases later : start + 1 ≤ place.toNat
    · have offset : place.toNat - start = place.toNat - (start + 1) + 1 := by omega
      rw [if_pos later, if_pos (by omega), offset, List.getElem?_cons_succ]
    · rw [if_neg later, if_neg (by omega)]

theorem mem_of_itemAt {values : List Literal} {start : Nat} {place : Address} {value : Literal}
    (found : itemAt values start place = some value) : value ∈ values := by
  unfold itemAt at found
  split at found
  · exact List.mem_of_getElem? found
  · cases found

namespace CellConfig

def items (cell : CellConfig) (base : Address) : List Literal :=
  (cell.values.map (Block.valuesAt base)).getD []

def literal? (cell : CellConfig) : Option Literal :=
  match cell.value with
  | some (.literal literal) => some literal
  | _ => none

def computed? (cell : CellConfig) : Option ReadTrigger :=
  match cell.value with
  | some (.computed trigger) => some trigger
  | _ => none

def readTrigger? (cell : CellConfig) : Option ReadTrigger := cell.computed?.or cell.onRead

/--
The literal that a description at a base places at an address: the item of its block that
falls there, or else, at the base, its value.
-/
def literalAt (cell : CellConfig) (base place : Address) : Option Literal :=
  (itemAt (cell.items base) base.toNat place).or (if base = place then cell.literal? else none)

theorem literal?_eq_some_iff {cell : CellConfig} {literal : Literal} :
    cell.literal? = some literal ↔ cell.value = some (.literal literal) := by
  unfold literal?
  constructor
  · intro found
    split at found
    · rename_i value
      cases found
      exact value
    · cases found
  · intro value
    rw [value]

theorem computed?_eq_some_iff {cell : CellConfig} {trigger : ReadTrigger} :
    cell.computed? = some trigger ↔ cell.value = some (.computed trigger) := by
  unfold computed?
  constructor
  · intro found
    split at found
    · rename_i value
      cases found
      exact value
    · cases found
  · intro value
    rw [value]

theorem of_readTrigger?_eq_some {cell : CellConfig} {trigger : ReadTrigger}
    (found : cell.readTrigger? = some trigger) :
    cell.value = some (.computed trigger) ∨ cell.onRead = some trigger := by
  rcases Option.or_eq_some_iff.1 found with computed | ⟨-, own⟩
  · exact .inl (computed?_eq_some_iff.1 computed)
  · exact .inr own

end CellConfig

namespace Cell

def setWord (word? : Option Word) (old : Cell) : Cell :=
  { old with stored := word?.or old.stored, observed := word?.or old.observed }

@[simp] theorem setWord_none (old : Cell) : old.setWord none = old := rfl

theorem setWord_setWord (first second : Option Word) (old : Cell) :
    (old.setWord first).setWord second = old.setWord (second.or first) := by
  simp only [setWord, Option.or_assoc]

def setTriggers (onRead : Option ReadTrigger) (onWrite : Option (List WriteTrigger)) (old : Cell) :
    Cell :=
  { old with onRead := onRead.or old.onRead, onWrite := onWrite.getD old.onWrite }

theorem setTriggers_setTriggers (first second : Option ReadTrigger)
    (onWrite : Option (List WriteTrigger)) (old : Cell) :
    (old.setTriggers first onWrite).setTriggers second none =
      old.setTriggers (second.or first) onWrite := by
  simp only [setTriggers, Option.or_assoc, Option.getD_none]

def supply (onRead : Option ReadTrigger) (onWrite : Option (List WriteTrigger))
    (word? : Option Word) (old : Cell) : Cell :=
  (old.setTriggers onRead onWrite).setWord word?

theorem supply_supply (onRead : Option ReadTrigger) (onWrite : Option (List WriteTrigger))
    (word? : Option Word) (laterRead : Option ReadTrigger)
    (laterWrite : Option (List WriteTrigger)) (later? : Option Word) (old : Cell) :
    (old.supply onRead onWrite word?).supply laterRead laterWrite later? =
      old.supply (laterRead.or onRead) (laterWrite.or onWrite) (later?.or word?) := by
  simp only [supply, setTriggers, setWord, Option.or_assoc, Option.getD_or]

end Cell

/-- A cell after the description at a base was applied. -/
def CellConfig.act (symbols : SymbolTable) (base : Address) (cell : CellConfig) (place : Address)
    (old : Cell) : Cell :=
  (if base = place then old.setTriggers cell.readTrigger? cell.onWrite else old).setWord
    ((cell.literalAt base place).bind (Literal.word? symbols))

section Act

variable (symbols : SymbolTable) (base : Address) (cell : CellConfig) (place : Address) (old : Cell)

variable {symbols base cell place} in
theorem CellConfig.act_congr {other : SymbolTable}
    (same : ∀ literal, cell.literalAt base place = some literal →
      literal.resolve symbols = literal.resolve other) :
    cell.act symbols base place old = cell.act other base place old := by
  unfold act
  cases placed : cell.literalAt base place with
  | none => rfl
  | some literal =>
    simp only [Option.bind_some, Literal.word?, same literal placed]

theorem CellConfig.act_eq_supply :
    cell.act symbols base place old =
      old.supply (if base = place then cell.readTrigger? else none)
        (if base = place then cell.onWrite else none)
        ((cell.literalAt base place).bind (Literal.word? symbols)) := by
  unfold act
  split <;> rfl

theorem CellConfig.writtenAt_act : (cell.act symbols base place old).writtenAt = old.writtenAt := by
  unfold act
  split <;> rfl

theorem CellConfig.onRead_act :
    (cell.act symbols base place old).onRead =
      (if base = place then cell.readTrigger? else none).or old.onRead := by
  unfold act
  split <;> rfl

theorem CellConfig.onWrite_act :
    (cell.act symbols base place old).onWrite =
      (if base = place then cell.onWrite else none).getD old.onWrite := by
  unfold act
  split <;> rfl

theorem CellConfig.stored_act :
    (cell.act symbols base place old).stored =
      ((cell.literalAt base place).bind (Literal.word? symbols)).or old.stored := by
  unfold act
  split <;> rfl

theorem CellConfig.observed_act :
    (cell.act symbols base place old).observed =
      ((cell.literalAt base place).bind (Literal.word? symbols)).or old.observed := by
  unfold act
  split <;> rfl

end Act

namespace Config

private theorem word?_of_resolve {symbols : SymbolTable} {literal : Literal} {word : Word}
    (resolved : literal.resolve symbols = .ok word) : literal.word? symbols = some word := by
  rw [Literal.word?, resolved]
  rfl

theorem placeValues_cons_eq_ok {base : Address} {placed : Nat} {value : Literal}
    {values : List Literal} {before after : Memory}
    (done : placeValues base placed (value :: values) before = .ok after) :
    ∃ target word, target.toNat = base.toNat + placed ∧
      value.resolve before.symbols = .ok word ∧
      placeValues base (placed + 1) values (before.poke target word) = .ok after := by
  unfold placeValues at done
  cases found : Address.ofNat? (base.toNat + placed) with
  | none =>
    rw [found] at done
    cases done
  | some target =>
    rw [found] at done
    obtain ⟨word, resolved, rest⟩ := exists_of_bind_eq_ok done
    exact ⟨target, word, Address.ofNat?_eq_some_iff.1 found, resolved, rest⟩

theorem placeValues_eq_ok {base : Address} {placed : Nat} {values : List Literal}
    {before after : Memory} (done : placeValues base placed values before = .ok after) :
    after.symbols = before.symbols ∧ after.clock = before.clock ∧
      (∀ value ∈ values, ∃ word, value.resolve before.symbols = .ok word) ∧
      ∀ place, after.cell place = (before.cell place).setWord
        ((itemAt values (base.toNat + placed) place).bind (Literal.word? before.symbols)) := by
  induction values generalizing placed before with
  | nil =>
    cases done
    refine ⟨rfl, rfl, nofun, fun place => ?_⟩
    simp [itemAt]
  | cons value values ih =>
    obtain ⟨target, word, position, resolved, done⟩ := placeValues_cons_eq_ok done
    obtain ⟨symbols, clock, others, cells⟩ := ih done
    refine ⟨symbols, clock, ?_, ?_⟩
    · intro other member
      rcases List.mem_cons.1 member with rfl | later
      · exact ⟨word, resolved⟩
      · exact others other later
    · intro place
      rw [cells, Memory.cell_poke, Memory.symbols_poke, itemAt_cons, ← position]
      by_cases same : target = place
      · subst same
        have behind : itemAt values (base.toNat + (placed + 1)) target = none :=
          if_neg (by omega)
        rw [if_pos rfl, if_pos rfl, behind, Option.bind_some, word?_of_resolve resolved]
        rfl
      · have apart : target.toNat ≠ place.toNat := fun equal => same (UInt64.toNat_inj.1 equal)
        rw [if_neg same, if_neg apart, position]
        rfl

theorem placeValue_eq_ok {base : Address} {cell : CellConfig} {before after : Memory}
    (done : placeValue base cell.value before = .ok after) :
    after.symbols = before.symbols ∧ after.clock = before.clock ∧
      (∀ value, cell.literal? = some value → ∃ word, value.resolve before.symbols = .ok word) ∧
      ∀ place, after.cell place =
        if base = place then
          ((before.cell base).setTriggers cell.computed? none).setWord
            (cell.literal?.bind (Literal.word? before.symbols))
        else before.cell place := by
  unfold CellConfig.literal? CellConfig.computed?
  match value : cell.value with
  | none =>
    rw [value] at done
    cases done
    refine ⟨rfl, rfl, nofun, fun place => ?_⟩
    by_cases same : base = place
    · rw [if_pos same, same]
      rfl
    · rw [if_neg same]
  | some (.computed trigger) =>
    rw [value] at done
    cases done
    refine ⟨rfl, rfl, nofun, fun place => ?_⟩
    rw [Memory.cell_setReadTrigger]
    rfl
  | some (.literal literal) =>
    rw [value, placeValue] at done
    cases resolved : literal.resolve before.symbols with
    | error error =>
      rw [resolved] at done
      cases done
    | ok word =>
      rw [resolved] at done
      cases done
      refine ⟨rfl, rfl, ?_, fun place => ?_⟩
      · intro other same
        cases same
        exact ⟨word, resolved⟩
      · simp only [Option.bind_some, word?_of_resolve resolved, Memory.cell_poke]
        rfl

theorem applyCell_eq_bind (base : Address) (cell : CellConfig) (memory : Memory) :
    applyCell base cell memory =
      placeValue base cell.value (installTriggers base cell memory) >>=
        placeValues base 0 (cell.items base) := by
  unfold applyCell CellConfig.items
  cases cell.values <;> rfl

private theorem word?_or {symbols : SymbolTable} {front back : Option Literal}
    (resolved : ∀ literal, front = some literal → ∃ word, literal.resolve symbols = .ok word) :
    (front.bind (Literal.word? symbols)).or (back.bind (Literal.word? symbols)) =
      (front.or back).bind (Literal.word? symbols) := by
  cases front with
  | none => rfl
  | some literal =>
    obtain ⟨word, resolved⟩ := resolved literal rfl
    simp only [Option.bind_some, Option.some_or, word?_of_resolve resolved]

theorem applyCell_eq_ok {base : Address} {cell : CellConfig} {before after : Memory}
    (done : applyCell base cell before = .ok after) :
    after.symbols = before.symbols ∧ after.clock = before.clock ∧
      (∀ place literal, cell.literalAt base place = some literal →
        ∃ word, literal.resolve before.symbols = .ok word) ∧
      ∀ place, after.cell place = cell.act before.symbols base place (before.cell place) := by
  rw [applyCell_eq_bind] at done
  obtain ⟨middle, valued, done⟩ := exists_of_bind_eq_ok done
  obtain ⟨symbols, clock, value, cells⟩ := placeValue_eq_ok valued
  obtain ⟨symbols', clock', items, cells'⟩ := placeValues_eq_ok done
  rw [symbols_installTriggers] at symbols value cells
  rw [symbols] at symbols' items cells'
  refine ⟨symbols', clock'.trans (clock.trans (clock_installTriggers ..)), ?_, ?_⟩
  · intro place literal placed
    rw [CellConfig.literalAt, Option.or_eq_some_iff] at placed
    rcases placed with item | ⟨-, own⟩
    · exact items literal (mem_of_itemAt item)
    · split at own
      · exact value literal own
      · cases own
  · intro place
    rw [cells', cells, Nat.add_zero, CellConfig.act, CellConfig.literalAt]
    by_cases same : base = place
    · have installed : (installTriggers base cell before).cell base =
          (before.cell base).setTriggers cell.onRead cell.onWrite := by
        rw [cell_installTriggers, if_pos rfl]
        rfl
      rw [← same, if_pos rfl, if_pos rfl, if_pos rfl, installed, Cell.setTriggers_setTriggers,
        Cell.setWord_setWord, word?_or fun literal item => items literal (mem_of_itemAt item)]
      rfl
    · rw [if_neg same, if_neg same, if_neg same, cell_installTriggers, if_neg same,
        Option.or_none]

theorem bindSymbols_eq (config : Config) (memory : Memory) :
    config.bindSymbols memory = { memory with
      symbols := config.toList.foldl
        (fun table entry => table.bindAll entry.2.symbols entry.1) memory.symbols } := by
  unfold bindSymbols
  generalize config.toList = entries
  induction entries generalizing memory with
  | nil => rfl
  | cons entry entries ih =>
    rw [List.foldl_cons, foldl_bind, ih]
    rfl

theorem foldlM_applyCell_eq_ok {entries : List (Address × CellConfig)} {before after : Memory}
    (done : entries.foldlM (fun memory entry => applyCell entry.1 entry.2 memory) before =
      .ok after) :
    after.symbols = before.symbols ∧ after.clock = before.clock ∧
      (∀ entry ∈ entries, ∀ place literal, entry.2.literalAt entry.1 place = some literal →
        ∃ word, literal.resolve before.symbols = .ok word) ∧
      ∀ place, after.cell place = entries.foldl
        (fun old entry => entry.2.act before.symbols entry.1 place old) (before.cell place) := by
  induction entries generalizing before with
  | nil =>
    cases done
    exact ⟨rfl, rfl, nofun, fun place => rfl⟩
  | cons entry entries ih =>
    rw [List.foldlM_cons] at done
    obtain ⟨middle, applied, done⟩ := exists_of_bind_eq_ok done
    obtain ⟨symbols, clock, literals, cells⟩ := applyCell_eq_ok applied
    obtain ⟨symbols', clock', literals', cells'⟩ := ih done
    rw [symbols] at symbols' literals' cells'
    refine ⟨symbols', clock'.trans clock, ?_, ?_⟩
    · intro other member
      rcases List.mem_cons.1 member with rfl | later
      · exact literals
      · exact literals' other later
    · intro place
      rw [cells', cells, List.foldl_cons]

/-- A load that succeeded has acted on every cell with one description after the other. -/
theorem load_eq_ok {config : Config} {before after : Memory}
    (loaded : config.load before = .ok after) :
    after.symbols = (config.bindSymbols before).symbols ∧ after.clock = before.clock ∧
      (∀ entry ∈ config.toList, ∀ place literal, entry.2.literalAt entry.1 place = some literal →
        ∃ word, literal.resolve after.symbols = .ok word) ∧
      ∀ place, after.cell place = config.toList.foldl
        (fun old entry => entry.2.act after.symbols entry.1 place old) (before.cell place) := by
  obtain ⟨symbols, clock, literals, cells⟩ := foldlM_applyCell_eq_ok loaded
  have bound := config.bindSymbols_eq before
  have startClock : (config.bindSymbols before).clock = before.clock := by rw [bound]
  have start : ∀ place, (config.bindSymbols before).cell place = before.cell place := by
    intro place
    rw [bound]
    rfl
  refine ⟨symbols, clock.trans startClock, ?_, ?_⟩
  · rw [symbols]
    exact literals
  · intro place
    rw [cells, start, symbols]

private theorem exists_last {α : Type} {entries : List α} {p : α → Prop}
    (some_entry : ∃ entry ∈ entries, p entry) :
    ∃ earlier entry later, entries = earlier ++ entry :: later ∧ p entry ∧
      ∀ other ∈ later, ¬ p other := by
  induction entries with
  | nil =>
    obtain ⟨entry, member, -⟩ := some_entry
    cases member
  | cons first entries ih =>
    by_cases further : ∃ entry ∈ entries, p entry
    · obtain ⟨earlier, entry, later, rfl, holds, last⟩ := ih further
      exact ⟨first :: earlier, entry, later, rfl, holds, last⟩
    · obtain ⟨entry, member, holds⟩ := some_entry
      rcases List.mem_cons.1 member with rfl | elsewhere
      · exact ⟨[], entry, entries, rfl, holds, fun other member qualifies =>
          further ⟨other, member, qualifies⟩⟩
      · exact absurd ⟨entry, elsewhere, holds⟩ further

private theorem exists_greatest {config : Config} {p : Address → CellConfig → Prop}
    (some_entry : ∃ address cell, config.get? address = some cell ∧ p address cell) :
    ∃ earlier address cell later, config.toList = earlier ++ (address, cell) :: later ∧
      config.get? address = some cell ∧ p address cell ∧ (∀ other ∈ later, ¬ p other.1 other.2) ∧
      ∀ other content, config.get? other = some content → p other content → other ≤ address := by
  obtain ⟨place, content, found, holds⟩ := some_entry
  obtain ⟨earlier, ⟨address, cell⟩, later, split, qualifies, last⟩ :=
    exists_last (p := fun entry => p entry.1 entry.2)
      ⟨(place, content), mem_toList_iff.2 found, holds⟩
  have ascending : Sparse.Ascending config.toList := Sparse.ascending_toList config.cells
  have listed : (address, cell) ∈ config.toList := by
    rw [split]
    exact List.mem_append_right earlier List.mem_cons_self
  refine ⟨earlier, address, cell, later, split, mem_toList_iff.1 listed, qualifies, last, ?_⟩
  intro other content found holds
  have member : (other, content) ∈ config.toList := mem_toList_iff.2 found
  rw [split] at member ascending
  rcases List.mem_append.1 member with before | rest
  · exact UInt64.le_of_lt ((List.pairwise_append.1 ascending).2.2 _ before _ List.mem_cons_self)
  · rcases List.mem_cons.1 rest with same | after
    · cases same
      exact UInt64.le_refl _
    · exact absurd holds (last _ after)

private theorem foldl_keeps {α β γ : Type} {step : α → β → α} (view : α → γ) {items : List β}
    (keeps : ∀ item ∈ items, ∀ state, view (step state item) = view state) (start : α) :
    view (items.foldl step start) = view start := by
  refine List.foldlRecOn (motive := fun state => view state = view start) items step rfl ?_
  intro state same item member
  exact (keeps item member state).trans same

section Fold

variable (symbols : SymbolTable) {entries : List (Address × CellConfig)} {place : Address}

private theorem foldl_act_uncovered
    (uncovered : ∀ entry ∈ entries, entry.2.literalAt entry.1 place = none) (old : Cell) :
    (entries.foldl (fun old entry => entry.2.act symbols entry.1 place old) old).stored =
        old.stored ∧
      (entries.foldl (fun old entry => entry.2.act symbols entry.1 place old) old).observed =
        old.observed := by
  constructor
  · refine foldl_keeps Cell.stored (fun entry member old => ?_) old
    rw [CellConfig.stored_act, uncovered entry member, Option.bind_none, Option.none_or]
  · refine foldl_keeps Cell.observed (fun entry member old => ?_) old
    rw [CellConfig.observed_act, uncovered entry member, Option.bind_none, Option.none_or]

private theorem foldl_act_elsewhere (elsewhere : ∀ entry ∈ entries, entry.1 ≠ place)
    (old : Cell) :
    (entries.foldl (fun old entry => entry.2.act symbols entry.1 place old) old).onRead =
        old.onRead ∧
      (entries.foldl (fun old entry => entry.2.act symbols entry.1 place old) old).onWrite =
        old.onWrite := by
  constructor
  · refine foldl_keeps Cell.onRead (fun entry member old => ?_) old
    rw [CellConfig.onRead_act, if_neg (elsewhere entry member), Option.none_or]
  · refine foldl_keeps Cell.onWrite (fun entry member old => ?_) old
    rw [CellConfig.onWrite_act, if_neg (elsewhere entry member), Option.getD_none]

theorem foldl_bindAll_undeclared {name : String}
    (undeclared : ∀ entry ∈ entries, name ∉ entry.2.symbols) (table : SymbolTable) :
    (entries.foldl (fun table entry => table.bindAll entry.2.symbols entry.1) table).resolve name =
      table.resolve name := by
  refine foldl_keeps (SymbolTable.resolve · name) (fun entry member table => ?_) table
  rw [SymbolTable.resolve_bindAll, if_neg (undeclared entry member)]

end Fold

private theorem toList_eq_append {config : Config} {place : Address} {cell : CellConfig}
    (found : config.get? place = some cell) :
    ∃ earlier later, config.toList = earlier ++ (place, cell) :: later ∧
      (∀ entry ∈ earlier, entry.1 ≠ place) ∧ ∀ entry ∈ later, entry.1 ≠ place := by
  obtain ⟨earlier, later, split⟩ := List.append_of_mem (mem_toList_iff.2 found)
  have ascending : Sparse.Ascending config.toList := Sparse.ascending_toList config.cells
  rw [split] at ascending
  obtain ⟨-, rest, below⟩ := List.pairwise_append.1 ascending
  refine ⟨earlier, later, split, ?_, ?_⟩
  · intro entry member same
    have order := below entry member _ List.mem_cons_self
    rw [same] at order
    exact UInt64.lt_irrefl _ order
  · intro entry member same
    have order := (List.pairwise_cons.1 rest).1 entry member
    rw [same] at order
    exact UInt64.lt_irrefl _ order

private theorem triggers_foldl_act (config : Config) (symbols : SymbolTable) (place : Address)
    (old : Cell) :
    (config.toList.foldl (fun old entry => entry.2.act symbols entry.1 place old) old).onRead =
        ((config.get? place).bind CellConfig.readTrigger?).or old.onRead ∧
      (config.toList.foldl (fun old entry => entry.2.act symbols entry.1 place old) old).onWrite =
        ((config.get? place).bind CellConfig.onWrite).getD old.onWrite := by
  cases found : config.get? place with
  | none =>
    apply foldl_act_elsewhere symbols
    rintro ⟨address, cell⟩ member rfl
    rw [mem_toList_iff.1 member] at found
    cases found
  | some cell =>
    obtain ⟨earlier, later, split, before, behind⟩ := toList_eq_append found
    have front := foldl_act_elsewhere symbols before old
    rw [split, List.foldl_append, List.foldl_cons, (foldl_act_elsewhere _ behind _).1,
      (foldl_act_elsewhere _ behind _).2, CellConfig.onRead_act, CellConfig.onWrite_act,
      if_pos rfl, if_pos rfl, front.1, front.2]
    exact ⟨rfl, rfl⟩

theorem triggers_of_load {config : Config} {before after : Memory}
    (loaded : config.load before = .ok after) (place : Address) :
    after.readTrigger place =
        ((config.get? place).bind CellConfig.readTrigger?).or (before.readTrigger place) ∧
      after.writeTriggers place =
        ((config.get? place).bind CellConfig.onWrite).getD (before.writeTriggers place) := by
  obtain ⟨-, -, -, cells⟩ := load_eq_ok loaded
  rw [Memory.readTrigger, Memory.writeTriggers, cells]
  exact triggers_foldl_act config after.symbols place (before.cell place)

def Declares (config : Config) (name : String) (address : Address) : Prop :=
  ∃ cell, config.get? address = some cell ∧ name ∈ cell.symbols

/-- A description of an address places a literal at another. -/
def Places (config : Config) (address place : Address) (literal : Literal) : Prop :=
  ∃ cell, config.get? address = some cell ∧ cell.literalAt address place = some literal

/-- A name belongs to the greatest address that declares it. -/
theorem resolve_of_load {config : Config} {before after : Memory}
    (loaded : config.load before = .ok after) {name : String} {address : Address}
    (declares : config.Declares name address)
    (greatest : ∀ other, config.Declares name other → other ≤ address) :
    after.symbols.resolve name = some address := by
  obtain ⟨cell, described, names⟩ := declares
  obtain ⟨earlier, place, content, later, split, found, member, last, above⟩ :=
    exists_greatest (p := fun _ cell => name ∈ cell.symbols) ⟨address, cell, described, names⟩
  have same : place = address :=
    UInt64.le_antisymm (greatest place ⟨content, found, member⟩)
      (above address cell described names)
  obtain ⟨symbols, -⟩ := load_eq_ok loaded
  rw [symbols, bindSymbols_eq, split, List.foldl_append, List.foldl_cons,
    foldl_bindAll_undeclared last, SymbolTable.resolve_bindAll, if_pos member, same]

theorem declares_of_resolve {config : Config} {before after : Memory}
    (loaded : config.load before = .ok after) {name : String} {address : Address}
    (unbound : before.symbols.resolve name = none)
    (bound : after.symbols.resolve name = some address) :
    config.Declares name address ∧ ∀ other, config.Declares name other → other ≤ address := by
  by_cases declared : ∃ place cell, config.get? place = some cell ∧ name ∈ cell.symbols
  · obtain ⟨-, place, cell, -, -, found, member, -, above⟩ := exists_greatest declared
    have greatest : ∀ other, config.Declares name other → other ≤ place := by
      rintro other ⟨content, found, member⟩
      exact above other content found member
    have belongs := resolve_of_load loaded ⟨cell, found, member⟩ greatest
    obtain rfl : place = address := Option.some.inj (belongs.symm.trans bound)
    exact ⟨⟨cell, found, member⟩, greatest⟩
  · obtain ⟨symbols, -⟩ := load_eq_ok loaded
    have undeclared : ∀ entry ∈ config.toList, name ∉ entry.2.symbols :=
      fun entry listed member => declared ⟨entry.1, entry.2, mem_toList_iff.1 listed, member⟩
    rw [symbols, bindSymbols_eq, foldl_bindAll_undeclared undeclared, unbound] at bound
    cases bound

section Layer

variable {config layer : Config} {before laid after : Memory}

theorem triggers_of_load_merge (alone : config.load before = .ok laid)
    (layered : (config.merge layer).load before = .ok after) {place : Address}
    (spared : layer.get? place = none) :
    after.readTrigger place = laid.readTrigger place ∧
      after.writeTriggers place = laid.writeTriggers place := by
  have own := triggers_of_load alone place
  have merged := triggers_of_load layered place
  rw [get?_merge, spared, Option.none_or] at merged
  exact ⟨merged.1.trans own.1.symm, merged.2.trans own.2.symm⟩

theorem resolve_of_load_merge (alone : config.load before = .ok laid)
    (layered : (config.merge layer).load before = .ok after) {name : String} {address : Address}
    (unbound : before.symbols.resolve name = none)
    (bound : laid.symbols.resolve name = some address)
    (undeclared : ∀ place, ¬ layer.Declares name place) (spared : layer.get? address = none) :
    after.symbols.resolve name = some address := by
  obtain ⟨⟨cell, found, member⟩, greatest⟩ := declares_of_resolve alone unbound bound
  have described : (config.merge layer).get? address = some cell := by
    rw [get?_merge, spared, Option.none_or, found]
  refine resolve_of_load layered ⟨cell, described, member⟩ ?_
  rintro place ⟨content, merged, listed⟩
  rw [get?_merge, Option.or_eq_some_iff] at merged
  rcases merged with own | ⟨-, below⟩
  · exact absurd ⟨content, own, listed⟩ (undeclared place)
  · exact greatest place ⟨content, below, listed⟩

end Layer

/-- A memory before and after a configuration is put in place. -/
structure InPlace (config : Config) (before after : Memory) : Prop where
  /-- Of all addresses that declare a name, the greatest has it. -/
  declared : ∀ name, (∃ address, config.Declares name address) →
    ∃ address, config.Declares name address ∧
      (∀ other, config.Declares name other → other ≤ address) ∧
      after.symbols.resolve name = some address
  undeclared : ∀ name, (∀ address, ¬ config.Declares name address) →
    after.symbols.resolve name = before.symbols.resolve name
  /-- Of all descriptions that place a literal, the one with the greatest address counts. -/
  covered : ∀ place, (∃ address literal, config.Places address place literal) →
    ∃ address literal word, config.Places address place literal ∧
      (∀ other content, config.Places other place content → other ≤ address) ∧
      literal.resolve after.symbols = .ok word ∧
      after.stored place = some word ∧ after.observed place = some word
  uncovered : ∀ place, (∀ address literal, ¬ config.Places address place literal) →
    after.stored place = before.stored place ∧ after.observed place = before.observed place
  readTrigger : ∀ place, after.readTrigger place =
    ((config.get? place).bind CellConfig.readTrigger?).or (before.readTrigger place)
  writeTriggers : ∀ place, after.writeTriggers place =
    ((config.get? place).bind CellConfig.onWrite).getD (before.writeTriggers place)
  clock : after.clock = before.clock
  writtenAt : ∀ place, (after.cell place).writtenAt = (before.cell place).writtenAt
  /-- Nothing runs: whatever triggers do, the host of a machine stays as it is. -/
  host : ∀ (wiring : Wiring) (depth : Nat) (machine : Machine) (host : Host),
    machine.memory = before →
    (Request.configure config).perform wiring depth ⟨machine, host⟩ =
      some (.ok .nothing, ⟨{ machine with memory := after }, host⟩)

/-- A configuration that was loaded is in place. -/
theorem inPlace_of_load {config : Config} {before after : Memory}
    (loaded : config.load before = .ok after) : config.InPlace before after := by
  obtain ⟨symbols, clock, literals, cells⟩ := load_eq_ok loaded
  have table : after.symbols = config.toList.foldl
      (fun table entry => table.bindAll entry.2.symbols entry.1) before.symbols := by
    rw [symbols, bindSymbols_eq]
  constructor
  case declared =>
    rintro name ⟨place, content, found, member⟩
    obtain ⟨earlier, address, cell, later, split, described, names, last, greatest⟩ :=
      exists_greatest (p := fun _ cell => name ∈ cell.symbols) ⟨place, content, found, member⟩
    refine ⟨address, ⟨cell, described, names⟩, ?_, ?_⟩
    · rintro other ⟨content, found, member⟩
      exact greatest other content found member
    · rw [table, split, List.foldl_append, List.foldl_cons, foldl_bindAll_undeclared last,
        SymbolTable.resolve_bindAll, if_pos names]
  case undeclared =>
    intro name undeclared
    rw [table]
    apply foldl_bindAll_undeclared
    intro entry member names
    exact undeclared entry.1 ⟨entry.2, mem_toList_iff.1 member, names⟩
  case covered =>
    -- The last description that places a literal here is the one with the greatest address.
    rintro place ⟨address, literal, cell, found, placed⟩
    obtain ⟨earlier, address, cell, later, split, described, ⟨literal, placed⟩, last, greatest⟩ :=
      exists_greatest
        (p := fun address cell => ∃ literal, cell.literalAt address place = some literal)
        ⟨address, cell, found, literal, placed⟩
    obtain ⟨word, resolved⟩ :=
      literals (address, cell) (mem_toList_iff.2 described) place literal placed
    have uncovered : ∀ entry ∈ later, entry.2.literalAt entry.1 place = none := by
      intro entry member
      rw [Option.eq_none_iff_forall_ne_some]
      intro other found
      exact last entry member ⟨other, found⟩
    have set := word?_of_resolve resolved
    refine ⟨address, literal, word, ⟨cell, described, placed⟩, ?_, resolved, ?_, ?_⟩
    · rintro other content ⟨cell, found, placed⟩
      exact greatest other cell found ⟨content, placed⟩
    · rw [Memory.stored, cells, split, List.foldl_append, List.foldl_cons,
        (foldl_act_uncovered _ uncovered _).1, CellConfig.stored_act, placed, Option.bind_some, set]
      rfl
    · rw [Memory.observed, cells, split, List.foldl_append, List.foldl_cons,
        (foldl_act_uncovered _ uncovered _).2, CellConfig.observed_act, placed, Option.bind_some,
        set]
      rfl
  case uncovered =>
    intro place uncovered
    have none_placed : ∀ entry ∈ config.toList, entry.2.literalAt entry.1 place = none := by
      intro entry member
      rw [Option.eq_none_iff_forall_ne_some]
      intro literal placed
      exact uncovered entry.1 literal ⟨entry.2, mem_toList_iff.1 member, placed⟩
    have same := foldl_act_uncovered after.symbols none_placed (before.cell place)
    rw [← cells] at same
    exact same
  case readTrigger => exact fun place => (triggers_of_load loaded place).1
  case writeTriggers => exact fun place => (triggers_of_load loaded place).2
  case clock => exact clock
  case writtenAt =>
    intro place
    rw [cells]
    exact foldl_keeps Cell.writtenAt (fun _ _ _ => CellConfig.writtenAt_act ..) _
  case host =>
    rintro wiring depth machine host rfl
    rw [Request.perform_configure, loaded]

/-- Of two overlapping blocks, the later one is seen; a reference looks ahead to the last `a`. -/
theorem inPlace_of_load_overlap :
    let config := Config.ofList
      [(0, { symbols := ["a"], values := some (.items [.symbolRef "a", .char 'x', .number 7]) }),
        (1, { symbols := ["a"], value := some (.literal (.number 9)), onRead := some ⟨none, 0⟩ }),
        (2, { values := some (.progression 2 10) })]
    ∃ after, config.load {} = .ok after ∧ config.InPlace {} after ∧
      after.stored 0 = some 1 ∧ after.stored 1 = some 9 ∧ after.stored 2 = some 2 := by
  intro config
  have computed : (config.load {}).toOption.map
      (fun after => (after.stored 0, after.stored 1, after.stored 2)) =
        some (some 1, some 9, some 2) := by decide
  cases loaded : config.load {} with
  | error error =>
    rw [loaded] at computed
    cases computed
  | ok after =>
    rw [loaded] at computed
    simp only [Except.toOption, Option.map_some, Option.some.injEq, Prod.mk.injEq] at computed
    exact ⟨after, rfl, inPlace_of_load loaded, computed⟩

end Config

end MoveMachine
