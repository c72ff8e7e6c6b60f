import Mathlib.Algebra.GroupWithZero.Nat
import Mathlib.Data.List.Induction
import Mathlib.Data.List.Nodup
import MoveMachine.SymbolTable

set_option autoImplicit false

namespace MoveMachine.SymbolTable

def ofHistory (history : List (String × Address)) : SymbolTable :=
  history.foldl (fun table binding => table.bind binding.1 binding.2) ∅

def lastBound (history : List (String × Address)) (name : String) : Option Address :=
  history.reverse.lookup name

/-- The binding at a time brought a name to an address, where it has been ever since. -/
structure Came (history : List (String × Address)) (address : Address) (name : String)
    (time : Nat) : Prop where
  bound : history[time]? = some (name, address)
  fromElsewhere : lastBound (history.take time) name ≠ some address
  stayed : ∀ later place, time < later → history[later]? = some (name, place) → place = address

/-- One name came to an address before another did. -/
def CameBefore (history : List (String × Address)) (address : Address) (name other : String) :
    Prop :=
  ∃ time later, time < later ∧ Came history address name time ∧ Came history address other later

private theorem ofHistory_append (history : List (String × Address)) (name : String)
    (address : Address) :
    ofHistory (history ++ [(name, address)]) = (ofHistory history).bind name address := by
  simp [ofHistory]

private theorem lastBound_append (history : List (String × Address)) (name other : String)
    (address : Address) :
    lastBound (history ++ [(name, address)]) other =
      if name = other then some address else lastBound history other := by
  by_cases same : name = other
  · simp [lastBound, same]
  · have apart : (other == name) = false := by simpa using Ne.symm same
    simp [lastBound, List.lookup_cons, apart, same]

theorem resolve_ofHistory (history : List (String × Address)) (name : String) :
    (ofHistory history).resolve name = lastBound history name := by
  induction history using List.reverseRecOn with
  | nil => simp [ofHistory, lastBound]
  | append_singleton history binding ih =>
    rw [ofHistory_append, resolve_bind, lastBound_append, ih]

private theorem came_append_iff {history : List (String × Address)} {name other : String}
    {address place : Address} {time : Nat} :
    Came (history ++ [(name, address)]) place other time ↔
      (Came history place other time ∧ (name = other → address = place)) ∨
        (time = history.length ∧ (name, address) = (other, place) ∧
          lastBound history other ≠ some place) := by
  constructor
  · intro came
    rcases Nat.lt_trichotomy time history.length with before | now | beyond
    · left
      have bound := came.bound
      have fromElsewhere := came.fromElsewhere
      rw [List.getElem?_append_left before] at bound
      rw [List.take_append_of_le_length (Nat.le_of_lt before)] at fromElsewhere
      refine ⟨⟨bound, fromElsewhere, fun later place' after listed => ?_⟩, ?_⟩
      · have below := (List.getElem?_eq_some_iff.1 listed).1
        exact came.stayed later place' after (by rwa [List.getElem?_append_left below])
      · rintro rfl
        exact came.stayed history.length address before (by simp)
    · right
      subst now
      have bound := came.bound
      have fromElsewhere := came.fromElsewhere
      simp at bound fromElsewhere
      exact ⟨rfl, by simp [bound], fromElsewhere⟩
    · have below := (List.getElem?_eq_some_iff.1 came.bound).1
      simp at below
      omega
  · rintro (⟨came, same⟩ | ⟨rfl, same, fromElsewhere⟩)
    · have below := (List.getElem?_eq_some_iff.1 came.bound).1
      refine ⟨?_, ?_, fun later place' after listed => ?_⟩
      · rw [List.getElem?_append_left below]
        exact came.bound
      · rw [List.take_append_of_le_length (Nat.le_of_lt below)]
        exact came.fromElsewhere
      · rcases Nat.lt_or_ge later history.length with before | end_
        · rw [List.getElem?_append_left before] at listed
          exact came.stayed later place' after listed
        · rw [List.getElem?_append_right end_, List.getElem?_singleton] at listed
          split at listed
          · cases listed
            exact same rfl
          · cases listed
    · cases same
      refine ⟨by simp, by simpa using fromElsewhere, fun later place' after listed => ?_⟩
      have below := (List.getElem?_eq_some_iff.1 listed).1
      simp at below
      omega

/-- A name came to the address where it is, at one time, and to no other. -/
theorem exists_came_iff {history : List (String × Address)} {address : Address} {name : String} :
    (∃ time, Came history address name time) ↔ lastBound history name = some address := by
  induction history using List.reverseRecOn with
  | nil =>
    refine iff_of_false ?_ (by simp [lastBound])
    rintro ⟨time, came⟩
    simpa using came.bound
  | append_singleton history binding ih =>
    obtain ⟨other, place⟩ := binding
    simp only [came_append_iff, exists_or, exists_and_right, ih, lastBound_append]
    by_cases same : other = name
    · subst same
      by_cases already : lastBound history other = some address <;> simp [already, eq_comm]
    · simp [same]

theorem Came.time_unique {history : List (String × Address)} {address : Address} {name : String}
    {time other : Nat} (came : Came history address name time)
    (again : Came history address name other) : time = other := by
  induction history using List.reverseRecOn with
  | nil => simpa using came.bound
  | append_singleton history binding ih =>
    rcases came_append_iff.1 came with ⟨early, -⟩ | ⟨now, -, moved⟩ <;>
      rcases came_append_iff.1 again with ⟨early', -⟩ | ⟨now', -, moved'⟩
    · exact ih early early'
    · exact absurd (exists_came_iff.1 ⟨time, early⟩) moved'
    · exact absurd (exists_came_iff.1 ⟨other, early'⟩) moved
    · rw [now, now']

private theorem CameBefore.append {history : List (String × Address)} {address place : Address}
    {name first second : String} (before : CameBefore history address first second)
    (keepsFirst : name = first → place = address) (keepsSecond : name = second → place = address) :
    CameBefore (history ++ [(name, place)]) address first second := by
  obtain ⟨time, later, order, came, cameLater⟩ := before
  exact ⟨time, later, order, came_append_iff.2 (.inl ⟨came, keepsFirst⟩),
    came_append_iff.2 (.inl ⟨cameLater, keepsSecond⟩)⟩

private theorem pairwise_aliasesOf (history : List (String × Address)) (address : Address) :
    ((ofHistory history).aliasesOf address).Pairwise (CameBefore history address) := by
  induction history using List.reverseRecOn with
  | nil => simp [ofHistory]
  | append_singleton history binding ih =>
    obtain ⟨name, place⟩ := binding
    rw [ofHistory_append, aliasesOf_bind]
    by_cases already : (ofHistory history).resolve name = some place
    · -- A name that is listed here and bound again is bound to where it is.
      have here : ∀ other ∈ (ofHistory history).aliasesOf address, name = other →
          place = address := by
        rintro other listed rfl
        rw [← resolve_eq_some_iff, already] at listed
        exact Option.some.inj listed
      rw [if_pos already]
      refine ih.imp_of_mem fun first second before => ?_
      exact before.append (here _ first) (here _ second)
    · -- The name leaves the list it is in and comes last in the list of its new place.
      have rest : (((ofHistory history).aliasesOf address).filter (· ≠ name)).Pairwise
          (CameBefore (history ++ [(name, place)]) address) := by
        refine (ih.filter _).imp_of_mem fun first second before => ?_
        have apart := (List.mem_filter.1 first).2
        have apart' := (List.mem_filter.1 second).2
        simp at apart apart'
        exact before.append (fun same => absurd same.symm apart) fun same => absurd same.symm apart'
      rw [if_neg already]
      split
      · rename_i same
        subst same
        rw [resolve_ofHistory] at already
        refine List.pairwise_append.2 ⟨rest, List.pairwise_singleton .., ?_⟩
        intro other listed last isLast
        obtain rfl := List.mem_singleton.1 isLast
        obtain ⟨listed, apart⟩ := List.mem_filter.1 listed
        simp at apart
        rw [← resolve_eq_some_iff, resolve_ofHistory, ← exists_came_iff] at listed
        obtain ⟨time, came⟩ := listed
        have early := (List.getElem?_eq_some_iff.1 came.bound).1
        exact ⟨time, history.length, early,
          came_append_iff.2 (.inl ⟨came, fun same => absurd same.symm apart⟩),
          came_append_iff.2 (.inr ⟨rfl, rfl, already⟩)⟩
      · exact rest

theorem mem_addresses_iff {table : SymbolTable} {address : Address} :
    address ∈ table.addresses ↔ table.aliasesOf address ≠ [] := by
  rw [addresses, Std.ExtTreeMap.mem_keys, mem_byAddress_iff]

theorem addresses_ascending (table : SymbolTable) : table.addresses.Pairwise (· < ·) :=
  Std.ExtTreeMap.ordered_keys.imp Std.compare_eq_lt.1

theorem size_eq_sum (table : SymbolTable) :
    table.size = (table.addresses.map fun address => (table.aliasesOf address).length).sum := by
  have distinct : (table.addresses.flatMap table.aliasesOf).Nodup := by
    refine List.nodup_flatMap.2 ⟨fun address _ => table.nodup_aliasesOf address, ?_⟩
    refine table.addresses_ascending.imp fun {address other} below name listed listed' => ?_
    rw [← resolve_eq_some_iff] at listed listed'
    rw [listed] at listed'
    cases listed'
    exact UInt64.lt_irrefl _ below
  have perm : table.byName.keys.Perm (table.addresses.flatMap table.aliasesOf) := by
    refine (List.perm_ext_iff_of_nodup Std.ExtTreeMap.nodup_keys distinct).2 fun name => ?_
    simp only [Std.ExtTreeMap.mem_keys, Std.ExtTreeMap.mem_iff_isSome_getElem?,
      Option.isSome_iff_exists, List.mem_flatMap, mem_addresses_iff]
    constructor
    · rintro ⟨address, bound⟩
      have listed := resolve_eq_some_iff.1 bound
      exact ⟨address, List.ne_nil_of_mem listed, listed⟩
    · rintro ⟨address, -, listed⟩
      exact ⟨address, resolve_eq_some_iff.2 listed⟩
  calc table.size = table.byName.keys.length := Std.ExtTreeMap.length_keys.symm
    _ = (table.addresses.flatMap table.aliasesOf).length := perm.length_eq
    _ = _ := List.length_flatMap

/--
What a table shows after any history of bindings. Every name is where its last binding put it,
and is listed there once and nowhere else. The aliases of an address stand in the order in which
they came to it for the last time. The addresses are those with an alias, ascending, and the
size is the number of aliases of all of them together.
-/
theorem ofHistory_consistent (history : List (String × Address)) :
    (∀ name, (ofHistory history).resolve name = lastBound history name) ∧
    (∀ name address, ((ofHistory history).aliasesOf address).count name =
      if (ofHistory history).resolve name = some address then 1 else 0) ∧
    (∀ name address, name ∈ (ofHistory history).aliasesOf address ↔
      ∃! time, Came history address name time) ∧
    (∀ address, ((ofHistory history).aliasesOf address).Pairwise (CameBefore history address)) ∧
    (ofHistory history).addresses.Pairwise (· < ·) ∧
    (∀ address, address ∈ (ofHistory history).addresses ↔
      (ofHistory history).aliasesOf address ≠ []) ∧
    (ofHistory history).size = ((ofHistory history).addresses.map fun address =>
      ((ofHistory history).aliasesOf address).length).sum := by
  refine ⟨resolve_ofHistory history, ?_, ?_, pairwise_aliasesOf history, addresses_ascending _,
    fun _ => mem_addresses_iff, size_eq_sum _⟩
  · intro name address
    split
    · rename_i bound
      exact List.count_eq_one_of_mem (nodup_aliasesOf ..) (resolve_eq_some_iff.1 bound)
    · rename_i unbound
      exact List.count_eq_zero.2 fun listed => unbound (resolve_eq_some_iff.2 listed)
  · intro name address
    rw [← resolve_eq_some_iff, resolve_ofHistory, ← exists_came_iff]
    constructor
    · rintro ⟨time, came⟩
      exact ⟨time, came, fun other again => again.time_unique came⟩
    · rintro ⟨time, came, -⟩
      exact ⟨time, came⟩

/-- A name that moves away and back comes last, and one that is bound again keeps its place. -/
example : (ofHistory [("a", 1), ("b", 1), ("a", 2), ("a", 1), ("b", 1)]).aliasesOf 1 =
    ["b", "a"] := by
  decide

end MoveMachine.SymbolTable
