import Mathlib.Data.List.Basic
import MoveMachine.Proofs.Listing
import MoveMachine.Proofs.Refusal

set_option autoImplicit false

namespace MoveMachine

private theorem exists_resolve_foldl_bindAll (entries : List (Address × CellConfig))
    (name : String) : ∃ given : Option Address, ∀ table : SymbolTable,
      SymbolTable.resolve
          (entries.foldl (fun table entry => table.bindAll entry.2.symbols entry.1) table) name =
        given.or (table.resolve name) := by
  induction entries with
  | nil => exact ⟨none, fun table => rfl⟩
  | cons entry entries ih =>
    obtain ⟨given, rest⟩ := ih
    refine ⟨given.or (if name ∈ entry.2.symbols then some entry.1 else none), fun table => ?_⟩
    rw [List.foldl_cons, rest, SymbolTable.resolve_bindAll, Option.or_assoc]
    split <;> rfl

private theorem foldl_bindAll_of_bound {entries : List (Address × CellConfig)}
    {table : SymbolTable}
    (bound : ∀ entry ∈ entries, ∀ name ∈ entry.2.symbols, table.resolve name = some entry.1) :
    entries.foldl (fun table entry => table.bindAll entry.2.symbols entry.1) table = table := by
  refine List.foldlRecOn (motive := fun state => state = table) entries _ rfl ?_
  rintro _ rfl entry member
  exact SymbolTable.bindAll_of_bound (bound entry member)

/-- Descriptions together supply a cell as one might, whatever is there. -/
private theorem exists_foldl_act (symbols : SymbolTable)
    (entries : List (Address × CellConfig)) (place : Address) :
    ∃ onRead onWrite word?, ∀ old : Cell,
      entries.foldl (fun old entry => entry.2.act symbols entry.1 place old) old =
        old.supply onRead onWrite word? := by
  induction entries with
  | nil => exact ⟨none, none, none, fun old => rfl⟩
  | cons entry entries ih =>
    obtain ⟨onRead, onWrite, word?, rest⟩ := ih
    obtain ⟨base, cell⟩ := entry
    refine ⟨onRead.or (if base = place then cell.readTrigger? else none),
      onWrite.or (if base = place then cell.onWrite else none),
      word?.or ((cell.literalAt base place).bind (Literal.word? symbols)), fun old => ?_⟩
    rw [List.foldl_cons, rest, CellConfig.act_eq_supply, Cell.supply_supply]

namespace Config

/-- What is the same, or may not be, when a configuration is loaded again. -/
structure Reloaded (config : Config) (after again : Memory) : Prop where
  resolve : ∀ name, again.symbols.resolve name = after.symbols.resolve name
  aliases : ∀ address, (again.symbols.aliasesOf address).Perm (after.symbols.aliasesOf address)
  /-- Every cell, with its content, its triggers and its stamp. -/
  cells : again.cells = after.cells
  clock : again.clock = after.clock
  exact : (∀ name address other, config.Declares name address → config.Declares name other →
    address = other) → again = after

private theorem resolve_bindSymbols_of_load {config : Config} {before after : Memory}
    (loaded : config.load before = .ok after) (name : String) :
    (config.bindSymbols after).symbols.resolve name = after.symbols.resolve name := by
  obtain ⟨symbols, -⟩ := load_eq_ok loaded
  obtain ⟨given, resolves⟩ := exists_resolve_foldl_bindAll config.toList name
  rw [bindSymbols_eq] at symbols ⊢
  rw [resolves, symbols, resolves, ← Option.or_assoc, Option.or_self]

private theorem cell_of_load_again {config : Config} {before after again : Memory}
    (loaded : config.load before = .ok after) (reloaded : config.load after = .ok again)
    (place : Address) : again.cell place = after.cell place := by
  obtain ⟨-, -, -, cells⟩ := load_eq_ok loaded
  obtain ⟨symbols, -, -, cellsAgain⟩ := load_eq_ok reloaded
  have same := resolve_bindSymbols_of_load loaded
  rw [← symbols] at same
  -- The tables may list aliases in another order, but every name means the same in both.
  have acts : ∀ old : Cell, ∀ entry ∈ config.toList,
      entry.2.act again.symbols entry.1 place old = entry.2.act after.symbols entry.1 place old :=
    fun old entry _ => CellConfig.act_congr old fun literal _ =>
      Literal.resolve_congr fun name _ => same name
  obtain ⟨onRead, onWrite, word?, supplies⟩ :=
    exists_foldl_act after.symbols config.toList place
  rw [cellsAgain, List.foldl_ext _ _ _ acts, cells, supplies, supplies, Cell.supply_supply,
    Option.or_self, Option.or_self, Option.or_self]

/--
Loading is idempotent. A configuration that was loaded can be loaded again; this leaves every
name where it is, and the cells and the clock as they are. If no name is declared at two
addresses, it leaves the aliases in their order too, and so the memory as it is.
-/
theorem load_again {config : Config} {before after : Memory}
    (loaded : config.load before = .ok after) :
    ∃ again, config.load after = .ok again ∧ config.Reloaded after again := by
  have same := resolve_bindSymbols_of_load loaded
  have passes : ∃ again, config.load after = .ok again := by
    rw [exists_load_iff]
    intro position literal held
    rw [faultOf?_congr fun name _ => same name, (load_eq_ok loaded).1]
    exact exists_load_iff.1 ⟨after, loaded⟩ position literal held
  obtain ⟨again, reloaded⟩ := passes
  obtain ⟨symbols, clock, -, -⟩ := load_eq_ok reloaded
  have resolve : ∀ name, again.symbols.resolve name = after.symbols.resolve name := by
    rw [symbols]
    exact same
  have listed : ∀ place, place ∈ again.cells ↔ place ∈ after.cells := by
    intro place
    rw [mem_cells_load reloaded, mem_cells_load loaded, or_assoc, or_self]
  have content := cell_of_load_again loaded reloaded
  refine ⟨again, reloaded, resolve, ?_, Memory.cells_eq listed content, clock, ?_⟩
  · intro address
    rw [List.perm_ext_iff_of_nodup (again.symbols.nodup_aliasesOf address)
      (after.symbols.nodup_aliasesOf address)]
    intro name
    rw [← SymbolTable.resolve_eq_some_iff, ← SymbolTable.resolve_eq_some_iff, resolve]
  · intro unique
    have kept : again.symbols = after.symbols := by
      rw [symbols, bindSymbols_eq]
      apply foldl_bindAll_of_bound
      rintro ⟨address, cell⟩ listed name declared
      have declares : config.Declares name address := ⟨cell, mem_toList_iff.1 listed, declared⟩
      exact resolve_of_load loaded declares fun other declaresToo =>
        UInt64.le_of_eq (unique name other address declaresToo declares)
    exact Memory.ext_cell kept clock listed content

/--
A name that is declared twice moves away and back, and comes last. Declared once, it keeps its
place, and a memory with a history of its own is loaded once and for all.
-/
theorem load_again_reordered :
    let memory := (({} : Memory).bind "x" 2).record 3 5 |>.addWriteTriggers 2 [⟨none, 0⟩] false
    let twice := Config.ofList
      [(1, { symbols := ["a"], values := some (.items [.symbolRef "b", .number 7]) }),
        (2, { symbols := ["a", "b"], value := some (.literal (.symbolRef "a")),
              onWrite := some [⟨none, 1⟩] })]
    let once := Config.ofList
      [(1, { symbols := ["a"], values := some (.items [.symbolRef "b", .number 7]) }),
        (2, { symbols := ["b"], onWrite := some [⟨none, 1⟩] })]
    (∃ after again, twice.load memory = .ok after ∧ twice.load after = .ok again ∧
      twice.Reloaded after again ∧ after.symbols.aliasesOf 2 = ["x", "a", "b"] ∧
      again.symbols.aliasesOf 2 = ["x", "b", "a"]) ∧
    ∃ after, once.load memory = .ok after ∧ once.load after = .ok after ∧
      after.stored 1 = some 2 := by
  intro memory twice once
  constructor
  · have computed : (twice.load memory).toOption.bind (fun after =>
        (twice.load after).toOption.map fun again =>
          (after.symbols.aliasesOf 2, again.symbols.aliasesOf 2)) =
        some (["x", "a", "b"], ["x", "b", "a"]) := by
      decide
    obtain ⟨after, first, computed⟩ := Option.bind_eq_some_iff.1 computed
    obtain ⟨again, second, views⟩ := Option.map_eq_some_iff.1 computed
    have loaded := eq_ok_of_toOption first
    obtain ⟨last, reloaded, holds⟩ := load_again loaded
    rw [reloaded] at second
    cases second
    simp only [Prod.mk.injEq] at views
    exact ⟨after, again, loaded, reloaded, holds, views⟩
  · have computed : (once.load memory).toOption.map (·.stored 1) = some (some 2) := by decide
    obtain ⟨after, first, stored⟩ := Option.map_eq_some_iff.1 computed
    have loaded := eq_ok_of_toOption first
    obtain ⟨again, reloaded, holds⟩ := load_again loaded
    have entries : once.toList = _ := Sparse.toList_ofList (by simp [Sparse.Ascending])
    have unique : ∀ name address other, once.Declares name address → once.Declares name other →
        address = other := by
      rintro name address other ⟨cell, described, declared⟩ ⟨content, found, declaredToo⟩
      rw [← mem_toList_iff, entries] at described found
      simp only [List.mem_cons, Prod.mk.injEq, List.not_mem_nil, or_false] at described found
      rcases described with ⟨rfl, rfl⟩ | ⟨rfl, rfl⟩ <;>
        rcases found with ⟨rfl, rfl⟩ | ⟨rfl, rfl⟩ <;> simp_all
    rw [holds.exact unique] at reloaded
    exact ⟨after, loaded, reloaded, stored⟩

end Config

end MoveMachine
