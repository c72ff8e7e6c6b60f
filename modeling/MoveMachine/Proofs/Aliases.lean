import MoveMachine.SymbolTable

set_option autoImplicit false

namespace MoveMachine.SymbolTable

def bindAll (table : SymbolTable) (names : List String) (address : Address) : SymbolTable :=
  names.foldl (fun table name => table.bind name address) table

theorem resolve_bindAll (table : SymbolTable) (names : List String) (address : Address)
    (other : String) :
    (table.bindAll names address).resolve other =
      if other ∈ names then some address else table.resolve other := by
  induction names generalizing table with
  | nil => rfl
  | cons name names ih =>
    have rest := ih (table.bind name address)
    rw [bindAll] at rest ⊢
    rw [List.foldl_cons, rest, resolve_bind]
    grind

theorem bind_of_bound {table : SymbolTable} {name : String} {address : Address}
    (bound : table.resolve name = some address) : table.bind name address = table :=
  if_pos bound

theorem bindAll_of_bound {table : SymbolTable} {names : List String} {address : Address}
    (bound : ∀ name ∈ names, table.resolve name = some address) :
    table.bindAll names address = table := by
  induction names with
  | nil => rfl
  | cons name names ih =>
    have rest := ih fun later member => bound later (List.mem_cons_of_mem name member)
    rw [bindAll] at rest ⊢
    rw [List.foldl_cons, bind_of_bound (bound name List.mem_cons_self), rest]

theorem bind_comm (table : SymbolTable) {name other : String} {address place : Address}
    (names : name ≠ other) (places : address ≠ place) :
    (table.bind name address).bind other place = (table.bind other place).bind name address := by
  have apart : other ≠ name := names.symm
  apply ext
  intro spot
  simp only [aliasesOf_bind, resolve_bind, if_neg names, if_neg apart]
  by_cases bound : table.resolve name = some address
  · simp only [if_pos bound]
  · simp only [if_neg bound]
    by_cases boundOther : table.resolve other = some place
    · simp only [if_pos boundOther]
    · simp only [if_neg boundOther]
      by_cases here : address = spot
      · have elsewhere : place ≠ spot := by
          rintro rfl
          exact places here
        simp [here, elsewhere, List.filter_append, List.filter_filter, names, Bool.and_comm]
      · by_cases there : place = spot
        · simp [here, there, List.filter_append, List.filter_filter, apart, Bool.and_comm]
        · simp [here, there, List.filter_filter, Bool.and_comm]

theorem not_mem_aliasesOf {table : SymbolTable} {name : String}
    (unbound : table.resolve name = none) (address : Address) :
    name ∉ table.aliasesOf address := by
  intro listed
  rw [← resolve_eq_some_iff, unbound] at listed
  cases listed

theorem aliasesOf_bind_of_unbound {table : SymbolTable} {name : String}
    (unbound : table.resolve name = none) (address place : Address) :
    (table.bind name address).aliasesOf place =
      table.aliasesOf place ++ if address = place then [name] else [] := by
  have kept : (table.aliasesOf place).filter (· ≠ name) = table.aliasesOf place := by
    rw [List.filter_eq_self]
    intro other listed
    have apart : other ≠ name := by
      rintro rfl
      exact not_mem_aliasesOf unbound place listed
    simpa using apart
  rw [aliasesOf_bind, if_neg (by simp [unbound]), kept]
  split <;> simp

theorem aliasesOf_bindAll_of_unbound {table : SymbolTable} {names : List String}
    (distinct : names.Nodup) (unbound : ∀ name ∈ names, table.resolve name = none)
    (address place : Address) :
    (table.bindAll names address).aliasesOf place =
      table.aliasesOf place ++ if address = place then names else [] := by
  induction names generalizing table with
  | nil => simp [bindAll]
  | cons name names ih =>
    obtain ⟨other, distinct⟩ := List.nodup_cons.1 distinct
    have next : ∀ later ∈ names, (table.bind name address).resolve later = none := by
      intro later member
      have apart : name ≠ later := by
        rintro rfl
        exact other member
      rw [resolve_bind, if_neg apart]
      exact unbound later (List.mem_cons_of_mem _ member)
    have rest := ih distinct next
    rw [bindAll] at rest ⊢
    rw [List.foldl_cons, rest, aliasesOf_bind_of_unbound (unbound name List.mem_cons_self)]
    split <;> simp

/-- Takes over the aliases that some addresses have in another table. -/
def takeOver (source : SymbolTable) (places : List Address) (table : SymbolTable) :
    SymbolTable :=
  places.foldl (fun table place => table.bindAll (source.aliasesOf place) place) table

theorem aliasesOf_takeOver {source table : SymbolTable} {places : List Address}
    (distinct : places.Nodup)
    (unbound : ∀ place ∈ places, ∀ name ∈ source.aliasesOf place, table.resolve name = none)
    (place : Address) :
    (source.takeOver places table).aliasesOf place =
      table.aliasesOf place ++ if place ∈ places then source.aliasesOf place else [] := by
  induction places generalizing table with
  | nil => simp [takeOver]
  | cons first places ih =>
    obtain ⟨other, distinct⟩ := List.nodup_cons.1 distinct
    have next : ∀ later ∈ places, ∀ name ∈ source.aliasesOf later,
        (table.bindAll (source.aliasesOf first) first).resolve name = none := by
      intro later member name listed
      have apart : name ∉ source.aliasesOf first := by
        intro listedFirst
        rw [← resolve_eq_some_iff] at listed listedFirst
        rw [listed] at listedFirst
        cases listedFirst
        exact other member
      rw [resolve_bindAll, if_neg apart]
      exact unbound later (List.mem_cons_of_mem _ member) name listed
    have rest := ih distinct next
    rw [takeOver] at rest ⊢
    rw [List.foldl_cons, rest, aliasesOf_bindAll_of_unbound (source.nodup_aliasesOf first)
      (unbound first List.mem_cons_self)]
    grind

/-- An empty table that takes over every alias list becomes the table it takes them from. -/
theorem takeOver_eq {source : SymbolTable} {places : List Address} (distinct : places.Nodup)
    (complete : ∀ place, source.aliasesOf place ≠ [] → place ∈ places) :
    source.takeOver places ∅ = source := by
  apply ext
  intro place
  rw [aliasesOf_takeOver distinct (fun _ _ _ _ => resolve_empty _)]
  by_cases empty : source.aliasesOf place = []
  · simp [empty]
  · simp [complete place empty]

end MoveMachine.SymbolTable
