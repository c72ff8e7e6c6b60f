import Mathlib.Data.List.Basic
import MoveMachine.Proofs.Listing
import MoveMachine.Proofs.Refusal

/-!
Layers that keep apart. To load a configuration with another merged over it is to go through the
descriptions of both by ascending address, now one of the lower and now one of the upper layer;
to load one after the other is to go through those of the lower first. Where the two layers
describe different cells, declare different names and cover different addresses, any description
of one commutes with any description of the other; and if the lower one does not refer to names
of the upper, its literals stand for the same words before the upper is bound as after it. So
the two ways of layering accept the same configurations and lead to the same memory.
-/

set_option autoImplicit false

namespace MoveMachine

section Interleaving

variable {α β : Type} {step : α → β → α} {items : List β}

/-- A change that commutes with the step for each item can be put off past all of them. -/
private theorem foldl_put_off (change : α → α)
    (commutes : ∀ item ∈ items, ∀ state, step (change state) item = change (step state item))
    (state : α) : items.foldl step (change state) = change (items.foldl step state) := by
  induction items generalizing state with
  | nil => rfl
  | cons item items ih =>
    rw [List.foldl_cons, List.foldl_cons, commutes item List.mem_cons_self]
    exact ih (fun later member => commutes later (List.mem_cons_of_mem item member)) _

private theorem foldl_kinds (first : β → Bool)
    (commutes : ∀ item ∈ items, ∀ other ∈ items, first item = true → first other = false →
      ∀ state, step (step state other) item = step (step state item) other) (state : α) :
    items.foldl step state =
      (items.filter fun item => !first item).foldl step
        ((items.filter first).foldl step state) := by
  induction items generalizing state with
  | nil => rfl
  | cons item items ih =>
    have rest := ih (fun earlier member other memberOther =>
      commutes earlier (List.mem_cons_of_mem item member) other
        (List.mem_cons_of_mem item memberOther)) (step state item)
    rw [List.foldl_cons, rest]
    cases kind : first item with
    | true => simp [kind]
    | false =>
      -- The item belongs to the second kind, and so waits for all items of the first.
      have waits : (items.filter first).foldl step (step state item) =
          step ((items.filter first).foldl step state) item := by
        apply foldl_put_off fun state => step state item
        intro earlier member state
        obtain ⟨member, kindEarlier⟩ := List.mem_filter.1 member
        exact commutes earlier (List.mem_cons_of_mem item member) item List.mem_cons_self
          kindEarlier kind state
      simp [kind, waits]

end Interleaving

private theorem bindAll_comm (table : SymbolTable) {names others : List String}
    {address place : Address} (distinct : ∀ name ∈ names, name ∉ others)
    (places : address ≠ place) :
    (table.bindAll others place).bindAll names address =
      (table.bindAll names address).bindAll others place := by
  apply foldl_put_off fun table : SymbolTable => table.bindAll others place
  intro name member table
  symm
  apply foldl_put_off fun table : SymbolTable => table.bind name address
  intro other memberOther table
  have names : name ≠ other := by
    rintro rfl
    exact distinct name member memberOther
  exact table.bind_comm names places

private theorem or_comm_of_none {α : Type} {a b : Option α} (missing : a = none ∨ b = none) :
    a.or b = b.or a := by
  rcases missing with rfl | rfl
  · rw [Option.none_or, Option.or_none]
  · rw [Option.none_or, Option.or_none]

private theorem act_comm (symbols : SymbolTable) {base other place : Address}
    {cell content : CellConfig} (bases : base ≠ other)
    (apart : cell.literalAt base place = none ∨ content.literalAt other place = none)
    (old : Cell) :
    cell.act symbols base place (content.act symbols other place old) =
      content.act symbols other place (cell.act symbols base place old) := by
  have onlyOne : ∀ {α : Type} (a b : Option α),
      (if base = place then a else none).or (if other = place then b else none) =
        (if other = place then b else none).or (if base = place then a else none) := by
    intro α a b
    apply or_comm_of_none
    by_cases here : base = place
    · exact .inr (if_neg fun there => bases (here.trans there.symm))
    · exact .inl (if_neg here)
  have words : ((cell.literalAt base place).bind (Literal.word? symbols)).or
      ((content.literalAt other place).bind (Literal.word? symbols)) =
      ((content.literalAt other place).bind (Literal.word? symbols)).or
        ((cell.literalAt base place).bind (Literal.word? symbols)) := by
    apply or_comm_of_none
    rcases apart with apart | apart <;> simp [apart]
  simp only [CellConfig.act_eq_supply, Cell.supply_supply]
  rw [onlyOne cell.readTrigger?, onlyOne cell.onWrite, words]

namespace Config

private theorem exists_holds_of_literalAt {config : Config} {base place : Address}
    {cell : CellConfig} {literal : Literal} (described : config.get? base = some cell)
    (placed : cell.literalAt base place = some literal) :
    ∃ position, config.Holds position literal := by
  rw [CellConfig.literalAt, Option.or_eq_some_iff] at placed
  rcases placed with item | ⟨-, own⟩
  · obtain ⟨index, listed⟩ := List.mem_iff_getElem?.1 (mem_of_itemAt item)
    unfold CellConfig.items at listed
    cases values : cell.values with
    | none => simp [values] at listed
    | some block =>
      refine ⟨⟨base, some index⟩, cell, described, block, values, ?_⟩
      simpa [values] using listed
  · split at own
    · exact ⟨⟨base, none⟩, cell, described, CellConfig.literal?_eq_some_iff.1 own⟩
    · cases own

/-- Two layers with nothing in common, of which the lower does not refer to the upper. -/
structure Apart (config layer : Config) : Prop where
  entries : ∀ address, config.get? address = none ∨ layer.get? address = none
  names : ∀ name address place, config.Declares name address → ¬ layer.Declares name place
  coverage : ∀ place base literal other content, config.Places base place literal →
    ¬ layer.Places other place content
  references : ∀ position name, config.Holds position (.symbolRef name) →
    ∀ address, ¬ layer.Declares name address

namespace Apart

variable {config layer : Config}

theorem described_iff (apart : config.Apart layer) {address : Address} {cell : CellConfig} :
    (config.merge layer).get? address = some cell ↔
      config.get? address = some cell ∨ layer.get? address = some cell := by
  rw [get?_merge]
  rcases apart.entries address with missing | missing <;> simp [missing]

theorem lists_iff (apart : config.Apart layer) {place : Address} :
    (config.merge layer).Lists place ↔ config.Lists place ∨ layer.Lists place := by
  simp only [Lists, apart.described_iff, or_and_right, exists_or]

theorem holds_iff (apart : config.Apart layer) {position : Position} {literal : Literal} :
    (config.merge layer).Holds position literal ↔
      config.Holds position literal ∨ layer.Holds position literal := by
  simp only [Holds, apart.described_iff, or_and_right, exists_or]

theorem bases (apart : config.Apart layer) {base other : Address} {cell content : CellConfig}
    (described : config.get? base = some cell) (layered : layer.get? other = some content) :
    base ≠ other := by
  rintro rfl
  have separate := apart.entries base
  simp [described, layered] at separate

private theorem literalAt_eq_none (apart : config.Apart layer) {base other : Address}
    {cell content : CellConfig} (described : config.get? base = some cell)
    (layered : layer.get? other = some content) (place : Address) :
    cell.literalAt base place = none ∨ content.literalAt other place = none := by
  cases placed : cell.literalAt base place with
  | none => exact .inl rfl
  | some literal =>
    right
    rw [Option.eq_none_iff_forall_ne_some]
    intro overlaid placedToo
    exact apart.coverage place base literal other overlaid ⟨cell, described, placed⟩
      ⟨content, layered, placedToo⟩

private theorem foldl_merge {α : Type} (apart : config.Apart layer)
    {step : α → Address × CellConfig → α}
    (commutes : ∀ entry ∈ config.toList, ∀ other ∈ layer.toList, ∀ state,
      step (step state other) entry = step (step state entry) other) (state : α) :
    (config.merge layer).toList.foldl step state =
      layer.toList.foldl step (config.toList.foldl step state) := by
  let first : Address × CellConfig → Bool := fun entry => (config.get? entry.1).isSome
  have ascending : ∀ config : Config, Sparse.Ascending config.toList :=
    fun config => Sparse.ascending_toList config.cells
  have lower : (config.merge layer).toList.filter first = config.toList := by
    apply Sparse.Ascending.eq_of_mem_iff ((ascending _).filter _) (ascending _)
    rintro ⟨address, cell⟩
    have separate := apart.entries address
    rw [List.mem_filter, mem_toList_iff, mem_toList_iff, apart.described_iff]
    simp only [first, Option.isSome_iff_exists]
    rcases separate with missing | missing <;> simp_all
  have upper : ((config.merge layer).toList.filter fun entry => !first entry) = layer.toList := by
    apply Sparse.Ascending.eq_of_mem_iff ((ascending _).filter _) (ascending _)
    rintro ⟨address, cell⟩
    have separate := apart.entries address
    rw [List.mem_filter, mem_toList_iff, mem_toList_iff, apart.described_iff]
    rcases separate with missing | missing <;> simp_all [first]
  rw [foldl_kinds first _ state, lower, upper]
  intro entry member other memberOther kind kindOther
  apply commutes
  · rw [← lower]
    exact List.mem_filter.2 ⟨member, kind⟩
  · rw [← upper]
    exact List.mem_filter.2 ⟨memberOther, by simp [kindOther]⟩

private theorem bindSymbols_merge (apart : config.Apart layer) (before : Memory) :
    (config.merge layer).bindSymbols before = layer.bindSymbols (config.bindSymbols before) := by
  rw [bindSymbols_eq, bindSymbols_eq, bindSymbols_eq]
  congr 1
  apply apart.foldl_merge
  rintro ⟨base, cell⟩ member ⟨other, content⟩ memberOther table
  rw [mem_toList_iff] at member memberOther
  apply bindAll_comm
  · intro name declared declaredToo
    exact apart.names name base other ⟨cell, member, declared⟩ ⟨content, memberOther, declaredToo⟩
  · exact apart.bases member memberOther

private theorem symbols_bindSymbols (apart : config.Apart layer) {before laid : Memory}
    (alone : config.load before = .ok laid) :
    (layer.bindSymbols laid).symbols = ((config.merge layer).bindSymbols before).symbols := by
  obtain ⟨symbols, -⟩ := load_eq_ok alone
  rw [apart.bindSymbols_merge]
  simp only [bindSymbols_eq] at symbols ⊢
  rw [symbols]

private theorem resolve_bindSymbols (apart : config.Apart layer) (before : Memory)
    {position : Position} {literal : Literal} (held : config.Holds position literal)
    (name : String) (refers : literal = .symbolRef name) :
    ((config.merge layer).bindSymbols before).symbols.resolve name =
      (config.bindSymbols before).symbols.resolve name := by
  subst refers
  rw [apart.bindSymbols_merge, bindSymbols_eq layer]
  apply foldl_bindAll_undeclared
  intro entry member declared
  exact apart.references position name held entry.1
    ⟨entry.2, mem_toList_iff.1 member, declared⟩

private theorem exists_load_merge_iff (apart : config.Apart layer) {before : Memory} :
    (∃ joined, (config.merge layer).load before = .ok joined) ↔
      ∃ laid after, config.load before = .ok laid ∧ layer.load laid = .ok after := by
  have lower : ∀ position literal, config.Holds position literal →
      faultOf? ((config.merge layer).bindSymbols before).symbols (position, literal) =
        faultOf? (config.bindSymbols before).symbols (position, literal) :=
    fun position literal held => faultOf?_congr (apart.resolve_bindSymbols before held)
  constructor
  · intro joined
    have passes := exists_load_iff.1 joined
    obtain ⟨laid, alone⟩ : ∃ laid, config.load before = .ok laid := by
      rw [exists_load_iff]
      intro position literal held
      rw [← lower position literal held]
      exact passes position literal (apart.holds_iff.2 (.inl held))
    obtain ⟨after, layered⟩ : ∃ after, layer.load laid = .ok after := by
      rw [exists_load_iff, apart.symbols_bindSymbols alone]
      intro position literal held
      exact passes position literal (apart.holds_iff.2 (.inr held))
    exact ⟨laid, after, alone, layered⟩
  · rintro ⟨laid, after, alone, layered⟩
    rw [exists_load_iff]
    intro position literal held
    rcases apart.holds_iff.1 held with own | upper
    · rw [lower position literal own]
      exact exists_load_iff.1 ⟨laid, alone⟩ position literal own
    · rw [← apart.symbols_bindSymbols alone]
      exact exists_load_iff.1 ⟨after, layered⟩ position literal upper

private theorem eq_of_load_merge (apart : config.Apart layer) {before laid after joined : Memory}
    (alone : config.load before = .ok laid) (layered : layer.load laid = .ok after)
    (merged : (config.merge layer).load before = .ok joined) : joined = after := by
  obtain ⟨symbols, clock, -, cells⟩ := load_eq_ok alone
  obtain ⟨symbolsAfter, clockAfter, -, cellsAfter⟩ := load_eq_ok layered
  obtain ⟨symbolsJoined, clockJoined, -, cellsJoined⟩ := load_eq_ok merged
  have same : joined.symbols = after.symbols := by
    rw [symbolsJoined, symbolsAfter, apart.symbols_bindSymbols alone]
  refine Memory.ext_cell same ?_ ?_ ?_
  · rw [clockJoined, clockAfter, clock]
  · intro place
    rw [mem_cells_load merged, mem_cells_load layered, mem_cells_load alone, apart.lists_iff,
      or_assoc]
  · intro place
    -- The upper layer's names are bound by now, but no literal of the lower refers to them.
    have acts : ∀ old : Cell, ∀ entry ∈ config.toList,
        entry.2.act laid.symbols entry.1 place old =
          entry.2.act after.symbols entry.1 place old := by
      rintro old ⟨base, cell⟩ member
      apply CellConfig.act_congr
      intro literal placed
      apply Literal.resolve_congr
      obtain ⟨position, held⟩ := exists_holds_of_literalAt (mem_toList_iff.1 member) placed
      intro name refers
      rw [← same, symbolsJoined, apart.resolve_bindSymbols before held name refers, symbols]
    rw [cellsJoined, cellsAfter, cells, List.foldl_ext _ _ _ acts, same]
    apply apart.foldl_merge
    rintro ⟨base, cell⟩ member ⟨other, content⟩ memberOther old
    rw [mem_toList_iff] at member memberOther
    apply act_comm _ (apart.bases member memberOther)
    exact apart.literalAt_eq_none member memberOther place

/--
Layering by a merge is layering by loading. A configuration with another merged over it can be
loaded exactly if the one can be loaded and then the other; and the memory is the same, with its
symbols and their order as aliases, its cells with their stamps, and its clock.
-/
theorem load_merge (apart : config.Apart layer) (before after : Memory) :
    (config.merge layer).load before = .ok after ↔
      ∃ laid, config.load before = .ok laid ∧ layer.load laid = .ok after := by
  constructor
  · intro merged
    obtain ⟨laid, final, alone, layered⟩ := apart.exists_load_merge_iff.1 ⟨after, merged⟩
    rw [apart.eq_of_load_merge alone layered merged]
    exact ⟨laid, alone, layered⟩
  · rintro ⟨laid, alone, layered⟩
    obtain ⟨joined, merged⟩ := apart.exists_load_merge_iff.2 ⟨laid, after, alone, layered⟩
    rw [← apart.eq_of_load_merge alone layered merged]
    exact merged

/--
A layer between two descriptions of the other. Either one moves a name off a cell of the other,
the upper refers to a name of the lower, and a block of the lower ends next to the upper's cell.
-/
theorem load_merge_between :
    let first : CellConfig :=
      { symbols := ["a"], values := some (.items [.symbolRef "p", .number 1]) }
    let between : CellConfig :=
      { symbols := ["q"], value := some (.literal (.symbolRef "p")), onRead := some ⟨none, 0⟩ }
    let last : CellConfig :=
      { symbols := ["p"], value := some (.literal (.symbolRef "a")), onWrite := some [⟨none, 1⟩] }
    let config := Config.ofList [(0, first), (4, last)]
    let layer := Config.ofList [(2, between)]
    let before := ((({} : Memory).bind "p" 2).bind "q" 4).record 1 8
    config.Apart layer ∧ ∃ laid after, config.load before = .ok laid ∧
      layer.load laid = .ok after ∧ (config.merge layer).load before = .ok after ∧
      after.symbols.aliasesOf 2 = ["q"] ∧ after.stored 0 = some 4 ∧ after.stored 2 = some 4 := by
  intro first between last config layer before
  have lower : ∀ address cell, config.get? address = some cell →
      address = 0 ∧ cell = first ∨ address = 4 ∧ cell = last := by
    intro address cell found
    have listed : config.toList = _ := Sparse.toList_ofList (by simp [Sparse.Ascending])
    rw [← mem_toList_iff, listed] at found
    simpa using found
  have upper : ∀ address cell, layer.get? address = some cell → address = 2 ∧ cell = between := by
    intro address cell found
    have listed : layer.toList = _ := Sparse.toList_ofList (by simp [Sparse.Ascending])
    rw [← mem_toList_iff, listed] at found
    simpa using found
  have apart : config.Apart layer := by
    constructor
    case entries =>
      intro address
      by_cases here : address = 2
      · left
        rw [Option.eq_none_iff_forall_ne_some]
        intro cell found
        rcases lower address cell found with ⟨there, -⟩ | ⟨there, -⟩
        · exact absurd (here.symm.trans there) (by decide)
        · exact absurd (here.symm.trans there) (by decide)
      · right
        rw [Option.eq_none_iff_forall_ne_some]
        exact fun cell found => here (upper address cell found).1
    case names =>
      rintro name address place ⟨cell, found, declared⟩ ⟨content, layered, declaredToo⟩
      obtain ⟨-, rfl⟩ := upper place content layered
      obtain rfl := List.mem_singleton.1 declaredToo
      rcases lower address cell found with ⟨-, rfl⟩ | ⟨-, rfl⟩
      · exact absurd declared (by decide)
      · exact absurd declared (by decide)
    case coverage =>
      rintro place base literal other content ⟨cell, found, placed⟩ ⟨cover, layered, placedToo⟩
      obtain ⟨rfl, rfl⟩ := upper other cover layered
      -- Without a block, the upper description places a literal at its own cell only.
      have own : 2 = place := by
        simp only [CellConfig.literalAt, CellConfig.items, between, Option.map_none,
          Option.getD_none, itemAt, List.getElem?_nil, ite_self, Option.none_or] at placedToo
        split at placedToo
        · assumption
        · cases placedToo
      subst own
      rcases lower base cell found with ⟨rfl, rfl⟩ | ⟨rfl, rfl⟩
      · cases placed
      · cases placed
    case references =>
      rintro ⟨base, item⟩ name ⟨cell, found, held⟩ address ⟨content, layered, declared⟩
      obtain ⟨-, rfl⟩ := upper address content layered
      obtain rfl := List.mem_singleton.1 declared
      rcases lower base cell found with ⟨-, rfl⟩ | ⟨-, rfl⟩
      · cases item with
        | none => cases held
        | some index =>
          obtain ⟨block, values, listed⟩ := held
          cases values
          have member : Literal.symbolRef "q" ∈ [.symbolRef "p", .number 1] :=
            List.mem_of_getElem? listed
          exact absurd member (by decide)
      · cases item with
        | none =>
          have value : last.value = some (.literal (.symbolRef "q")) := held
          exact absurd value (by decide)
        | some index =>
          obtain ⟨block, values, -⟩ := held
          cases values
  have computed : (config.load before).toOption.bind (fun laid =>
      (layer.load laid).toOption.map fun after =>
        (after.symbols.aliasesOf 2, after.stored 0, after.stored 2)) =
      some (["q"], some 4, some 4) := by
    decide
  obtain ⟨laid, alone, computed⟩ := Option.bind_eq_some_iff.1 computed
  obtain ⟨after, layered, views⟩ := Option.map_eq_some_iff.1 computed
  simp only [Prod.mk.injEq] at views
  have merged := (apart.load_merge before after).2
    ⟨laid, eq_ok_of_toOption alone, eq_ok_of_toOption layered⟩
  exact ⟨apart, laid, after, eq_ok_of_toOption alone, eq_ok_of_toOption layered, merged, views⟩

end Apart

end Config

end MoveMachine
