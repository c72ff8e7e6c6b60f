import Mathlib.Algebra.Group.Nat.Defs
import MoveMachine.Proofs.Devices
import MoveMachine.Proofs.Numerals

set_option autoImplicit false

namespace MoveMachine

namespace Decimal

theorem address?_eq_some_iff {text : List Char} {address : Address} :
    address? text = some address ↔ Digits text ∧ positional text = address.toNat := by
  simp only [address?, Option.bind_eq_some_iff, natural?_eq_some_iff, Address.ofNat?_eq_some_iff]
  constructor
  · rintro ⟨n, ⟨digits, rfl⟩, number⟩
    exact ⟨digits, number.symm⟩
  · rintro ⟨digits, number⟩
    exact ⟨_, ⟨digits, rfl⟩, number.symm⟩

theorem address?_eq_none_iff {text : List Char} :
    address? text = none ↔ (Digits text → 2 ^ 64 ≤ positional text) := by
  constructor
  · intro none digits
    rw [← Nat.not_lt]
    intro below
    have number : positional text = (UInt64.ofNat (positional text)).toNat :=
      (UInt64.toNat_ofNat_of_lt' below).symm
    rw [address?_eq_some_iff.2 ⟨digits, number⟩] at none
    cases none
  · intro large
    rw [Option.eq_none_iff_forall_ne_some]
    intro address spelled
    obtain ⟨digits, number⟩ := address?_eq_some_iff.1 spelled
    have below := address.toNat_lt
    have above := large digits
    omega

end Decimal

namespace Memory

/-- What a name refers to: the address that it is bound to, or else the one that it spells. -/
inductive Names (memory : Memory) (name : String) (address : Address) : Prop
  | symbol : memory.symbols.resolve name = some address → Names memory name address
  | numeral : memory.symbols.resolve name = none → Decimal.Digits name.toList →
      Decimal.positional name.toList = address.toNat → Names memory name address

theorem resolve_name_eq_ok_iff {memory : Memory} {name : String} {address : Address} :
    memory.resolve (.name name) = .ok address ↔ memory.Names name address := by
  have found : memory.resolve (.name name) = .ok address ↔
      (memory.symbols.resolve name).or (Decimal.address? name.toList) = some address := by
    simp only [resolve]
    cases (memory.symbols.resolve name).or (Decimal.address? name.toList) <;> simp
  rw [found, Option.or_eq_some_iff, Decimal.address?_eq_some_iff]
  constructor
  · rintro (bound | ⟨unbound, digits, number⟩)
    · exact .symbol bound
    · exact .numeral unbound digits number
  · rintro (bound | ⟨unbound, digits, number⟩)
    · exact .inl bound
    · exact .inr ⟨unbound, digits, number⟩

theorem resolve_name_eq_error_iff {memory : Memory} {name : String} {error : MemoryError} :
    memory.resolve (.name name) = .error error ↔
      error = .unknownSymbol name ∧ memory.symbols.resolve name = none ∧
        (Decimal.Digits name.toList → 2 ^ 64 ≤ Decimal.positional name.toList) := by
  rw [← Decimal.address?_eq_none_iff, ← Option.or_eq_none_iff]
  simp only [resolve]
  cases (memory.symbols.resolve name).or (Decimal.address? name.toList) <;> simp [eq_comm]

theorem resolve_ofAddress {memory : Memory} {address : Address}
    (unbound : memory.symbols.resolve (Decimal.ofAddress address) = none) :
    memory.resolve (.name (Decimal.ofAddress address)) = .ok address := by
  obtain ⟨digits, number⟩ :=
    Decimal.address?_eq_some_iff.1 (Decimal.address?_ofAddress address)
  exact resolve_name_eq_ok_iff.2 (.numeral unbound digits number)

/--
A name refers to the address that it is bound to; if it is not bound, to the address that it
spells in digits, with any number of leading zeros; and to nothing if it is not bound and spells
no number below 2 ^ 64. The digits of an address, when they are not bound, refer to that address,
and reading or writing by them has the outcome of reading or writing by the address.
-/
theorem resolve_exact (memory : Memory) :
    (∀ name address, memory.resolve (.name name) = .ok address ↔ memory.Names name address) ∧
    (∀ name error, memory.resolve (.name name) = .error error ↔
      error = .unknownSymbol name ∧ memory.symbols.resolve name = none ∧
        (Decimal.Digits name.toList → 2 ^ 64 ≤ Decimal.positional name.toList)) ∧
    ∀ address, memory.symbols.resolve (Decimal.ofAddress address) = none →
      memory.resolve (.name (Decimal.ofAddress address)) = .ok address ∧
      ∀ (wiring : Wiring) (depth : Nat) (host : Host),
        Access.read wiring depth (.name (Decimal.ofAddress address)) ⟨memory, host⟩ =
          Access.read wiring depth (.address address) ⟨memory, host⟩ ∧
        ∀ value,
          Access.write wiring depth (.name (Decimal.ofAddress address)) value ⟨memory, host⟩ =
            Access.write wiring depth (.address address) value ⟨memory, host⟩ := by
  refine ⟨fun _ _ => resolve_name_eq_ok_iff, fun _ _ => resolve_name_eq_error_iff, ?_⟩
  intro address unbound
  have resolved := resolve_ofAddress unbound
  refine ⟨resolved, fun wiring depth host => ⟨Access.readVia_resolved resolved, fun value => ?_⟩⟩
  have direct : memory.resolve (.address address) = .ok address := rfl
  exact (Access.writeVia_resolved resolved value).trans
    (Access.writeVia_resolved direct value).symm

/--
Among bound digits the greatest address is named by its own, and its trigger runs when it is read
by them. The digits that are bound do not refer to the address that they spell, and those of the
next number refer to nothing.
-/
theorem resolve_exact_greatest :
    let memory := (({} : Memory).bind "7" 9).setReadTrigger 18446744073709551615 ⟨none, 0⟩
    let wiring : Wiring := { reads := #[.done 5] }
    memory.symbols.resolve (Decimal.ofAddress 18446744073709551615) = none ∧
      memory.resolve (.name "18446744073709551615") = .ok 18446744073709551615 ∧
      Access.read wiring 1 (.name "18446744073709551615") ⟨memory, {}⟩ =
        Access.read wiring 1 (.address 18446744073709551615) ⟨memory, {}⟩ ∧
      (Access.read wiring 1 (.address 18446744073709551615) ⟨memory, {}⟩).map (·.1) =
        some (.ok 5) ∧
      memory.Names "7" 9 ∧ ¬ memory.Names "7" 7 ∧
      memory.resolve (.name "18446744073709551616") =
        .error (.unknownSymbol "18446744073709551616") := by
  intro memory wiring
  have digits : Decimal.ofAddress 18446744073709551615 = "18446744073709551615" := by decide
  have unbound : memory.symbols.resolve (Decimal.ofAddress 18446744073709551615) = none := by
    decide
  obtain ⟨named, _, spelled⟩ := resolve_exact memory
  obtain ⟨resolved, alike⟩ := spelled 18446744073709551615 unbound
  rw [digits] at resolved alike
  refine ⟨unbound, resolved, (alike wiring 1 {}).1, by decide, ?_, ?_, by decide⟩
  · rw [← named]
    decide
  · rw [← named]
    decide

end Memory

end MoveMachine
