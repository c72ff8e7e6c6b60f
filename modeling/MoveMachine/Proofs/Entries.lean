import MoveMachine.Word

set_option autoImplicit false

namespace MoveMachine

section Readings

variable {m : Type → Type} [Monad m] [LawfulMonad m] {α β γ : Type} {f : α → m β} {g : α → β}

theorem mapM_eq_pure {items : List α} (reads : ∀ item ∈ items, f item = pure (g item)) :
    items.mapM f = pure (items.map g) := by
  induction items with
  | nil => exact List.mapM_nil
  | cons item items ih =>
    have first := reads item List.mem_cons_self
    have rest := ih fun other member => reads other (List.mem_cons_of_mem item member)
    rw [List.mapM_cons, first, rest, pure_bind, pure_bind, List.map_cons]

theorem mapM_eq_self {f : α → m α} {items : List α} (reads : ∀ item ∈ items, f item = pure item) :
    items.mapM f = pure items := by
  have all := mapM_eq_pure (g := id) reads
  rw [all, List.map_id]

theorem mapM_option_eq_pure {item? : Option α} (reads : ∀ item ∈ item?, f item = pure (g item)) :
    item?.mapM f = pure (item?.map g) := by
  cases item? with
  | none => rfl
  | some item => rw [Option.mapM_some, reads item rfl, map_pure, Option.map_some]

omit [LawfulMonad m] in
theorem mapM_option_map (item? : Option γ) (write : γ → α) :
    (item?.map write).mapM f = item?.mapM (f ∘ write) := by
  cases item? <;> rfl

end Readings

section Success

variable {ε α β : Type}

theorem exists_of_bind_eq_ok {first : Except ε α} {next : α → Except ε β} {result : β}
    (read : first >>= next = .ok result) :
    ∃ value, first = .ok value ∧ next value = .ok result := by
  cases first with
  | error error => cases read
  | ok value => exact ⟨value, rfl, read⟩

theorem exists_of_mapM_eq_ok {f : α → Except ε β} {items : List α} {results : List β}
    (read : items.mapM f = .ok results) : ∀ item ∈ items, ∃ result, f item = .ok result := by
  induction items generalizing results with
  | nil => exact nofun
  | cons first items ih =>
    rw [List.mapM_cons] at read
    obtain ⟨result, head, read⟩ := exists_of_bind_eq_ok read
    obtain ⟨others, rest, -⟩ := exists_of_bind_eq_ok read
    intro item member
    rcases List.mem_cons.1 member with rfl | later
    · exact ⟨result, head⟩
    · exact ih rest item later

end Success

namespace Sparse

variable {α β : Type}

def Ascending (entries : List (Address × α)) : Prop := entries.Pairwise fun a b => a.1 < b.1

theorem ascending_toList (map : Sparse α) : Ascending map.toList :=
  Std.ExtTreeMap.ordered_keys_toList.imp Std.compare_eq_lt.1

theorem Ascending.nodup {entries : List (Address × α)} (ascending : Ascending entries) :
    entries.Nodup := by
  refine ascending.imp ?_
  rintro a _ below rfl
  exact UInt64.lt_irrefl a.1 below

theorem Ascending.lookup_eq_some_iff {entries : List (Address × α)}
    (ascending : Ascending entries) {address : Address} {value : α} :
    entries.lookup address = some value ↔ (address, value) ∈ entries := by
  induction entries with
  | nil => simp
  | cons entry entries ih =>
    obtain ⟨place, other⟩ := entry
    obtain ⟨above, rest⟩ := List.pairwise_cons.1 ascending
    rw [List.lookup_cons, List.mem_cons]
    by_cases same : address = place
    · subst same
      have absent : (address, value) ∉ entries := fun member =>
        UInt64.lt_irrefl address (above _ member)
      simp [absent, eq_comm]
    · have different : (address == place) = false := beq_eq_false_iff_ne.2 same
      simp only [different]
      rw [ih rest]
      simp [same]

theorem Ascending.eq_of_mem_iff {entries others : List (Address × α)}
    (ascending : Ascending entries) (ascendingOthers : Ascending others)
    (same : ∀ entry, entry ∈ entries ↔ entry ∈ others) : entries = others := by
  have perm : entries.Perm others :=
    (List.perm_ext_iff_of_nodup ascending.nodup ascendingOthers.nodup).2 same
  refine List.Perm.eq_of_pairwise ?_ ascending ascendingOthers perm
  intro a b _ _ below above
  exact absurd above (UInt64.lt_asymm below)

theorem Ascending.map {entries : List (Address × α)} (ascending : Ascending entries)
    (change : Address → α → β) :
    Ascending (entries.map fun entry => (entry.1, change entry.1 entry.2)) :=
  List.pairwise_map.2 ascending

theorem toList_ofList {entries : List (Address × α)} (ascending : Ascending entries) :
    (Std.ExtTreeMap.ofList entries compare).toList = entries := by
  apply (ascending_toList _).eq_of_mem_iff ascending
  rintro ⟨address, value⟩
  have apart : entries.Pairwise fun a b => ¬ compare a.1 b.1 = .eq := by
    refine ascending.imp ?_
    intro a b below same
    rw [Std.compare_eq_lt.2 below] at same
    cases same
  rw [Std.ExtTreeMap.mem_toList_iff_getElem?_eq_some]
  constructor
  · intro found
    cases listed : (entries.map Prod.fst).contains address with
    | false =>
      rw [Std.ExtTreeMap.getElem?_ofList_of_contains_eq_false listed] at found
      cases found
    | true =>
      obtain ⟨⟨place, other⟩, member, rfl⟩ := List.mem_map.1 (List.contains_iff_mem.1 listed)
      have own := Std.ExtTreeMap.getElem?_ofList_of_mem Std.ReflCmp.compare_self apart member
      rw [own] at found
      cases found
      exact member
  · intro member
    exact Std.ExtTreeMap.getElem?_ofList_of_mem Std.ReflCmp.compare_self apart member

theorem ofList_toList (map : Sparse α) : Std.ExtTreeMap.ofList map.toList compare = map :=
  Std.ExtTreeMap.toList_inj.1 (toList_ofList (ascending_toList map))

end Sparse

end MoveMachine
