import Mathlib.Algebra.Group.Nat.Defs
import MoveMachine.Decimal

set_option autoImplicit false

namespace MoveMachine.Decimal

/-- The number that a run of digits stands for, by the places of the digits. -/
def positional : List Char → Nat
  | [] => 0
  | digit :: rest => (digit.toNat - '0'.toNat) * 10 ^ rest.length + positional rest

structure Digits (text : List Char) : Prop where
  nonempty : text ≠ []
  digits : ∀ c ∈ text, c.isDigit = true

/-- The numerals of integers: a run of digits, or a minus and a run of digits. -/
inductive Spells : List Char → Int → Prop
  | natural {digits : List Char} : Digits digits → Spells digits (positional digits)
  | negative {digits : List Char} : Digits digits → Spells ('-' :: digits) (-positional digits)

/-- Reading digit by digit, times ten at each step, gives every digit the power of its place. -/
theorem ofDigitChars_eq_positional (digits : List Char) :
    Nat.ofDigitChars 10 digits 0 = positional digits := by
  induction digits with
  | nil => rfl
  | cons digit rest ih =>
    calc Nat.ofDigitChars 10 (digit :: rest) 0
        = Nat.ofDigitChars 10 rest (digit.toNat - '0'.toNat) := by
          rw [Nat.ofDigitChars_cons, Nat.mul_zero, Nat.zero_add]
      _ = 10 ^ rest.length * (digit.toNat - '0'.toNat) + Nat.ofDigitChars 10 rest 0 :=
          Nat.ofDigitChars_eq_ofDigitChars_zero
      _ = positional (digit :: rest) := by rw [ih, positional, Nat.mul_comm]

theorem isNatural_iff {text : List Char} : isNatural text = true ↔ Digits text := by
  simp only [isNatural, Bool.and_eq_true, Bool.not_eq_true', List.isEmpty_eq_false_iff,
    List.all_eq_true]
  exact ⟨fun all => ⟨all.1, all.2⟩, fun all => ⟨all.nonempty, all.digits⟩⟩

theorem natural?_eq_some_iff {text : List Char} {n : Nat} :
    natural? text = some n ↔ Digits text ∧ positional text = n := by
  rw [natural?, ofDigitChars_eq_positional, ← isNatural_iff]
  split <;> simp_all

theorem Digits.unsigned {text rest : List Char} (digits : Digits text) : text ≠ '-' :: rest := by
  rintro rfl
  exact absurd (digits.digits '-' List.mem_cons_self) (by decide)

theorem integer?_eq_some_iff {text : List Char} {n : Int} :
    integer? text = some n ↔ Spells text n := by
  constructor
  · intro read
    unfold integer? at read
    split at read
    · obtain ⟨value, unsigned, rfl⟩ := Option.map_eq_some_iff.1 read
      obtain ⟨magnitude, run, same⟩ := Option.bind_eq_some_iff.1 unsigned
      cases same
      obtain ⟨digits, rfl⟩ := natural?_eq_some_iff.1 run
      exact .negative digits
    · obtain ⟨magnitude, run, rfl⟩ := Option.map_eq_some_iff.1 read
      obtain ⟨digits, rfl⟩ := natural?_eq_some_iff.1 run
      exact .natural digits
  · rintro (digits | digits)
    · have run := natural?_eq_some_iff.2 ⟨digits, rfl⟩
      rw [integer?, run]
      · rfl
      · exact fun rest => digits.unsigned
    · have run := natural?_eq_some_iff.2 ⟨digits, rfl⟩
      rw [integer?, run]
      rfl

theorem Spells.begins {c : Char} {rest : List Char} {n : Int} (spelled : Spells (c :: rest) n) :
    c.isDigit = true ∨ c = '-' ∧ rest ≠ [] := by
  cases spelled with
  | natural digits => exact .inl (digits.digits c List.mem_cons_self)
  | negative digits => exact .inr ⟨rfl, digits.nonempty⟩

theorem spells_digit {c : Char} (digit : c.isDigit = true) : Spells [c] (positional [c]) :=
  .natural ⟨List.cons_ne_nil c [], fun _ member => List.mem_singleton.1 member ▸ digit⟩

end MoveMachine.Decimal
