import Std.Data.ExtTreeMap

set_option autoImplicit false

namespace MoveMachine

/-- What a cell holds: a signed 64-bit number. Its arithmetic wraps. -/
abbrev Word := Int64

/-- Where a cell lives: an unsigned 64-bit number. -/
abbrev Address := UInt64

/-- A finite map from addresses, listed in ascending order. -/
abbrev Sparse (α : Type) := Std.ExtTreeMap Address α compare

def Address.ofNat? (n : Nat) : Option Address :=
  if n < UInt64.size then some (UInt64.ofNat n) else none

def Word.ofInt? (n : Int) : Option Word :=
  if Int64.minValue.toInt ≤ n ∧ n ≤ Int64.maxValue.toInt then some (Int64.ofInt n) else none

/-- The address that a word names. A negative word names none. -/
def Address.ofWord? (word : Word) : Option Address :=
  if word < 0 then none else some word.toUInt64

/-- The word that names an address. The upper half of the address space has none. -/
def Word.ofAddress? (address : Address) : Option Word :=
  if 0 ≤ address.toInt64 then some address.toInt64 else none

def Word.ofChar (c : Char) : Word := Int64.ofNat c.toNat

def Word.toChar? (word : Word) : Option Char :=
  if 0 ≤ word.toInt ∧ word.toInt.toNat.isValidChar then some (Char.ofNat word.toInt.toNat) else none

theorem Address.ofNat?_eq_some_iff {n : Nat} {address : Address} :
    Address.ofNat? n = some address ↔ address.toNat = n := by
  unfold Address.ofNat?
  constructor
  · intro found
    split at found
    · rename_i below
      cases found
      exact UInt64.toNat_ofNat_of_lt' below
    · cases found
  · rintro rfl
    rw [if_pos address.toNat_lt_size, UInt64.ofNat_toNat]

theorem Address.ofWord?_eq_some_iff {word : Word} {address : Address} :
    Address.ofWord? word = some address ↔ 0 ≤ word ∧ word.toUInt64 = address := by
  unfold Address.ofWord?
  split <;> rename_i negative
  · simp [Int64.not_le.2 negative]
  · simp [Int64.not_lt.1 negative]

theorem Word.ofInt?_eq_some_iff {n : Int} {word : Word} :
    Word.ofInt? n = some word ↔ word.toInt = n := by
  unfold Word.ofInt?
  constructor
  · intro found
    split at found
    · rename_i range
      cases found
      have above := Int64.toInt_maxValue
      exact Int64.toInt_ofInt_of_le range.1 (by omega)
    · cases found
  · rintro rfl
    rw [if_pos ⟨word.minValue_le_toInt, word.toInt_le⟩, Int64.ofInt_toInt]

end MoveMachine
