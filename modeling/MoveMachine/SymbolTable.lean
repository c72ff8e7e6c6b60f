import MoveMachine.Word

/-!
The symbol table. A name belongs to at most one address; an address may carry any number of
aliases, listed in the order in which each most recently came to belong to it. The table is
indexed both ways, and that the two indexes agree is part of the type.

`aliasesOf_bind` and `resolve_bind` say what a binding does to either view, and `ext` that the
alias lists determine a table.
-/

set_option autoImplicit false

namespace MoveMachine

/-- Names bound to addresses, indexed by name and by address. -/
structure SymbolTable where
  byName : Std.ExtTreeMap String Address compare
  byAddress : Sparse (List String)
  /-- A name is listed at the address that it belongs to, and nowhere else. -/
  listed : ∀ (name : String) (address : Address),
    byName[name]? = some address ↔ name ∈ byAddress[address]?.getD []
  /-- An address lists a name once. -/
  distinct : ∀ address : Address, (byAddress[address]?.getD []).Nodup
  /-- Only addresses with an alias are indexed. -/
  inhabited : ∀ address : Address, byAddress[address]? ≠ some []

namespace SymbolTable

def empty : SymbolTable where
  byName := ∅
  byAddress := ∅
  listed := by simp
  distinct := by simp
  inhabited := by simp

instance : EmptyCollection SymbolTable := ⟨empty⟩

instance : Inhabited SymbolTable := ⟨empty⟩

def resolve (table : SymbolTable) (name : String) : Option Address := table.byName[name]?

/-- The aliases of an address, in binding order. -/
def aliasesOf (table : SymbolTable) (address : Address) : List String :=
  table.byAddress[address]?.getD []

def addresses (table : SymbolTable) : List Address := table.byAddress.keys

def size (table : SymbolTable) : Nat := table.byName.size

def isEmpty (table : SymbolTable) : Bool := table.byName.isEmpty

theorem resolve_eq_some_iff {table : SymbolTable} {name : String} {address : Address} :
    table.resolve name = some address ↔ name ∈ table.aliasesOf address :=
  table.listed name address

theorem nodup_aliasesOf (table : SymbolTable) (address : Address) :
    (table.aliasesOf address).Nodup :=
  table.distinct address

theorem mem_byAddress_iff {table : SymbolTable} {address : Address} :
    address ∈ table.byAddress ↔ table.aliasesOf address ≠ [] := by
  have inhabited := table.inhabited address
  rw [aliasesOf, Std.ExtTreeMap.mem_iff_isSome_getElem?]
  cases found : table.byAddress[address]? <;> simp_all

/-- The alias lists determine the table. -/
theorem ext {table other : SymbolTable}
    (sameAliases : ∀ address, table.aliasesOf address = other.aliasesOf address) :
    table = other := by
  have sameIndex : table.byAddress = other.byAddress := by
    apply Std.ExtTreeMap.ext_getElem?
    intro address
    have same := sameAliases address
    have inhabited := table.inhabited address
    have otherInhabited := other.inhabited address
    simp only [aliasesOf] at same
    cases left : table.byAddress[address]? <;> cases right : other.byAddress[address]? <;>
      simp_all
  have sameNames : table.byName = other.byName := by
    apply Std.ExtTreeMap.ext_getElem?
    intro name
    apply Option.ext
    intro address
    rw [table.listed, other.listed, sameIndex]
  cases table
  cases other
  simp_all

/-- The aliases of every address once a name is withdrawn from the one it belongs to. -/
def withdrawn (table : SymbolTable) (name : String) : Sparse (List String) :=
  match table.byName[name]? with
  | none => table.byAddress
  | some address => table.byAddress.alter address fun aliases? =>
      match (aliases?.getD []).filter (· ≠ name) with
      | [] => none
      | rest => some rest

private theorem getD_withdrawn (table : SymbolTable) (name : String) (address : Address) :
    (table.withdrawn name)[address]?.getD [] =
      (table.byAddress[address]?.getD []).filter (· ≠ name) := by
  have elsewhere : table.byName[name]? ≠ some address →
      (table.byAddress[address]?.getD []).filter (· ≠ name) =
        table.byAddress[address]?.getD [] := by
    intro unbound
    rw [List.filter_eq_self]
    intro other member
    have : other ≠ name := by
      rintro rfl
      exact unbound ((table.listed _ _).2 member)
    simpa using this
  unfold withdrawn
  split
  · rename_i unbound
    rw [elsewhere (by simp [unbound])]
  · rename_i home bound
    rw [Std.ExtTreeMap.getElem?_alter]
    by_cases same : home = address
    · subst same
      simp only [Std.ReflCmp.compare_self, if_true]
      split
      · rename_i none_left
        exact none_left.symm
      · rfl
    · have apart : compare home address ≠ .eq := by simpa using same
      rw [if_neg apart, elsewhere (by simpa [bound] using same)]

private theorem withdrawn_inhabited (table : SymbolTable) (name : String) (address : Address) :
    (table.withdrawn name)[address]? ≠ some [] := by
  unfold withdrawn
  split
  · exact table.inhabited address
  · rw [Std.ExtTreeMap.getElem?_alter]
    split
    · split <;> simp_all
    · exact table.inhabited address

private theorem getD_alter_append (index : Sparse (List String)) (name : String)
    (address other : Address) :
    (index.alter address fun aliases? => some (aliases?.getD [] ++ [name]))[other]?.getD [] =
      if address = other then index[other]?.getD [] ++ [name] else index[other]?.getD [] := by
  rw [Std.ExtTreeMap.getElem?_alter]
  by_cases same : address = other
  · subst same
    simp
  · have apart : compare address other ≠ .eq := by simpa using same
    rw [if_neg apart, if_neg same]

/--
Binds a name to an address. A name that already belongs to the address keeps its place among
the aliases; any other name leaves the address it belonged to and comes last at the new one.
-/
def bind (table : SymbolTable) (name : String) (address : Address) : SymbolTable :=
  if table.byName[name]? = some address then table
  else
    { byName := table.byName.insert name address
      byAddress := (table.withdrawn name).alter address fun aliases? =>
        some (aliases?.getD [] ++ [name])
      listed := by
        intro other place
        rw [getD_alter_append, Std.ExtTreeMap.getElem?_insert, getD_withdrawn]
        by_cases sameName : name = other
        · subst sameName
          by_cases samePlace : address = place <;> simp [samePlace]
        · have apart : compare name other ≠ .eq := by simpa using sameName
          rw [if_neg apart, table.listed]
          have kept : other ≠ name := fun same => sameName same.symm
          by_cases samePlace : address = place <;> simp [samePlace, kept]
      distinct := by
        intro place
        rw [getD_alter_append, getD_withdrawn]
        have kept := (table.distinct place).filter (· ≠ name)
        split
        · rw [List.nodup_append]
          exact ⟨kept, by simp, by simp⟩
        · exact kept
      inhabited := by
        intro place
        rw [Std.ExtTreeMap.getElem?_alter]
        split
        · simp
        · exact table.withdrawn_inhabited name place }

theorem aliasesOf_bind (table : SymbolTable) (name : String) (address place : Address) :
    (table.bind name address).aliasesOf place =
      if table.resolve name = some address then table.aliasesOf place
      else if address = place then (table.aliasesOf place).filter (· ≠ name) ++ [name]
      else (table.aliasesOf place).filter (· ≠ name) := by
  unfold bind resolve aliasesOf
  split
  · rfl
  · rw [getD_alter_append, getD_withdrawn]

theorem resolve_bind (table : SymbolTable) (name other : String) (address : Address) :
    (table.bind name address).resolve other =
      if name = other then some address else table.resolve other := by
  unfold bind resolve
  split
  · split <;> simp_all
  · rw [Std.ExtTreeMap.getElem?_insert]
    simp

@[simp] theorem aliasesOf_empty (address : Address) : (∅ : SymbolTable).aliasesOf address = [] := by
  change ((∅ : Sparse (List String))[address]?).getD [] = []
  simp

@[simp] theorem resolve_empty (name : String) : (∅ : SymbolTable).resolve name = none := by
  change (∅ : Std.ExtTreeMap String Address compare)[name]? = none
  simp

end SymbolTable

end MoveMachine
