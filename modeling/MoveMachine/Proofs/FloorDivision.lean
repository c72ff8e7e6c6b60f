import Mathlib.Data.Rat.Floor
import MoveMachine.Device.Arithmetic

set_option autoImplicit false

namespace MoveMachine

private theorem floor_div_eq_fdiv (a b : Int) : ⌊(a : ℚ) / b⌋ = a.fdiv b := by
  have nonnegative (c : Int) (n : Nat) : ⌊(c : ℚ) / (n : Int)⌋ = c.fdiv n := by
    rw [Int.fdiv_eq_ediv_of_nonneg c (Int.natCast_nonneg n), Int.cast_natCast,
      Rat.floor_intCast_div_natCast]
  obtain ⟨n, rfl | rfl⟩ := b.eq_nat_or_neg
  · exact nonnegative a n
  · -- A minus in the divisor is carried to the dividend.
    rw [← Int.neg_fdiv_neg, Int.neg_neg, ← nonnegative]
    push_cast
    rw [div_neg, neg_div]

private theorem fdiv_eq_tdiv_sub (a b : Int) (nonzero : b ≠ 0) :
    a.fdiv b =
      if a.tmod b ≠ 0 ∧ (decide (a < 0) ≠ decide (b < 0)) then a.tdiv b - 1 else a.tdiv b := by
  have divides : b ∣ a ↔ a.tmod b = 0 := Int.dvd_iff_tmod_eq_zero
  rw [Int.fdiv_eq_tdiv]
  by_cases exact_division : a.tmod b = 0
  · rw [if_pos (divides.2 exact_division), if_neg (fun rest => rest.1 exact_division)]
    omega
  · rw [if_neg (fun divisible => exact_division (divides.1 divisible))]
    -- Truncation goes up, and not down, exactly if the signs differ.
    rcases Int.lt_or_gt_of_ne nonzero with negative | positive
    · have sign := Int.sign_eq_neg_one_of_neg negative
      by_cases below : a < 0
      · simp [exact_division, negative, below, sign, Int.not_le.2 below, Int.not_le.2 negative]
      · simp [exact_division, negative, below, Int.not_lt.1 below, Int.not_le.2 negative]
    · have sign := Int.sign_eq_one_of_pos positive
      have notNegative : ¬ b < 0 := by omega
      have atLeast : 0 ≤ b := by omega
      by_cases below : a < 0
      · simp [exact_division, notNegative, atLeast, below, sign, Int.not_le.2 below]
      · simp [exact_division, notNegative, atLeast, below, Int.not_lt.1 below]

private theorem fmod_between {a b : Int} (nonzero : b ≠ 0) :
    0 ≤ a.fmod b ∧ a.fmod b < b ∨ b < a.fmod b ∧ a.fmod b ≤ 0 := by
  rcases Int.lt_or_gt_of_ne nonzero with negative | positive
  · have opposite : a.fmod b = -(-a).fmod (-b) := by rw [Int.neg_fmod_neg, Int.neg_neg]
    have positive : 0 < -b := by omega
    have atLeast := Int.fmod_nonneg_of_pos (-a) positive
    have below := Int.fmod_lt_of_pos (-a) positive
    omega
  · exact .inl ⟨Int.fmod_nonneg_of_pos a positive, Int.fmod_lt_of_pos a positive⟩

private theorem sign_fmod (a : Int) {b : Int} (nonzero : b ≠ 0) :
    (a.fmod b = 0 ∨ (a.fmod b).sign = b.sign) ∧ |a.fmod b| < |b| := by
  rcases fmod_between (a := a) nonzero with ⟨atLeast, below⟩ | ⟨above, atMost⟩
  · have positive : 0 < b := by omega
    refine ⟨?_, by rwa [abs_of_nonneg atLeast, abs_of_pos positive]⟩
    rcases atLeast.eq_or_lt with none_left | remains
    · exact .inl none_left.symm
    · exact .inr (by rw [Int.sign_eq_one_of_pos remains, Int.sign_eq_one_of_pos positive])
  · have negative : b < 0 := by omega
    refine ⟨?_, by rw [abs_of_nonpos atMost, abs_of_neg negative]; omega⟩
    rcases atMost.eq_or_lt with none_left | remains
    · exact .inl none_left
    · exact .inr (by rw [Int.sign_eq_neg_one_of_neg remains, Int.sign_eq_neg_one_of_neg negative])

namespace Word

/-- The one division of which the quotient is no word: the least word by -1. -/
def Overflows (a b : Word) : Prop := a.toInt = -2 ^ 63 ∧ b.toInt = -1

variable {a b : Word}

theorem fdiv_range (a b : Word) :
    -2 ^ 63 ≤ a.toInt.fdiv b.toInt ∧ a.toInt.fdiv b.toInt ≤ 2 ^ 63 := by
  have smaller := Int.natAbs_fdiv_le_natAbs a.toInt b.toInt
  have least := a.le_toInt
  have greatest := a.toInt_lt
  omega

theorem overflows_iff (nonzero : b.toInt ≠ 0) :
    Overflows a b ↔ a.toInt.fdiv b.toInt = 2 ^ 63 := by
  constructor
  · rintro ⟨least, minus⟩
    rw [least, minus]
    decide
  · intro above
    have smaller := Int.natAbs_fdiv_le_natAbs a.toInt b.toInt
    have least := a.le_toInt
    have greatest := a.toInt_lt
    have whole := Int.mul_fdiv_add_fmod a.toInt b.toInt
    have rest := fmod_between (a := a.toInt) nonzero
    rw [above] at whole smaller
    exact ⟨by omega, by omega⟩

private theorem eq_zero_iff_toInt : b = 0 ↔ b.toInt = 0 := by
  rw [← Int64.toInt_inj, Int64.toInt_zero]

private theorem lowers_iff_toInt :
    a % b ≠ 0 ∧ decide (a < 0) ≠ decide (b < 0) ↔
      a.toInt.tmod b.toInt ≠ 0 ∧ decide (a.toInt < 0) ≠ decide (b.toInt < 0) := by
  rw [← Int64.toInt_mod, ne_eq, ne_eq, ← Int64.toInt_inj, Int64.toInt_zero]
  simp only [Int64.lt_iff_toInt_lt, Int64.toInt_zero]

theorem floorDiv_eq_ofInt (a b : Word) : a.floorDiv b = .ofInt (a.toInt.fdiv b.toInt) := by
  have quotient : a / b = .ofInt (a.toInt.tdiv b.toInt) := by
    rw [← Int64.toInt_inj, Int64.toInt_div, Int64.toInt_ofInt]
  unfold floorDiv
  by_cases zero : b = 0
  · rw [if_pos zero, eq_zero_iff_toInt.1 zero, Int.fdiv_zero]
    rfl
  · rw [if_neg zero, fdiv_eq_tdiv_sub _ _ fun same => zero (eq_zero_iff_toInt.2 same)]
    by_cases lower : a % b ≠ 0 ∧ (decide (a < 0) ≠ decide (b < 0))
    · rw [if_pos lower, if_pos (lowers_iff_toInt.1 lower), quotient, Int64.ofInt_sub]
      rfl
    · rw [if_neg lower, if_neg fun other => lower (lowers_iff_toInt.2 other), quotient]

theorem toInt_floorDiv (nonzero : b ≠ 0) (fits : ¬ Overflows a b) :
    (a.floorDiv b).toInt = a.toInt.fdiv b.toInt := by
  rw [overflows_iff fun zero => nonzero (eq_zero_iff_toInt.2 zero)] at fits
  have range := fdiv_range a b
  rw [floorDiv_eq_ofInt]
  exact Int64.toInt_ofInt_of_le range.1 (by omega)

theorem toInt_floorDiv_of_overflows (overflow : Overflows a b) :
    (a.floorDiv b).toInt = -2 ^ 63 := by
  rw [floorDiv_eq_ofInt, overflow.1, overflow.2]
  rfl

theorem toInt_div_sub_one (nonzero : b ≠ 0) (remains : a % b ≠ 0)
    (signs : decide (a < 0) ≠ decide (b < 0)) : (a / b - 1).toInt = (a / b).toInt - 1 := by
  have lowers := lowers_iff_toInt.1 ⟨remains, signs⟩
  have notMinus : b ≠ -1 := by
    rintro rfl
    refine lowers.1 ?_
    exact (Int.tmod_neg a.toInt 1).trans (Int.tmod_one a.toInt)
  calc (a / b - 1).toInt
      = (a.floorDiv b).toInt := by rw [floorDiv, if_neg nonzero, if_pos ⟨remains, signs⟩]
    _ = a.toInt.fdiv b.toInt :=
        toInt_floorDiv nonzero fun overflow => notMinus (Int64.toInt_inj.1 overflow.2)
    _ = a.toInt.tdiv b.toInt - 1 := by
        rw [fdiv_eq_tdiv_sub _ _ fun zero => nonzero (eq_zero_iff_toInt.2 zero), if_pos lowers]
    _ = (a / b).toInt - 1 := by rw [Int64.toInt_div_of_ne_right a b notMinus]

/--
Division of words by 0 gives 0. Every other division gives the floor of the quotient, reduced to a
word; the floor is a word already except where the least word is divided by -1, which gives the
least word. Lowering the truncated quotient never wraps. What a quotient that is a word leaves
over is nothing or has the sign of the divisor, and is smaller than it.
-/
theorem floorDiv_exact (a b : Word) :
    let quotient := ⌊(a.toInt : ℚ) / b.toInt⌋
    let rest := a.toInt - b.toInt * (a.floorDiv b).toInt
    (b = 0 → a.floorDiv b = 0) ∧
    (b ≠ 0 → (a.floorDiv b).toInt = quotient.bmod (2 ^ 64)) ∧
    (b ≠ 0 → ((a.floorDiv b).toInt = quotient ↔ ¬ Overflows a b)) ∧
    (Overflows a b → (a.floorDiv b).toInt = -2 ^ 63) ∧
    (b ≠ 0 → a % b ≠ 0 → decide (a < 0) ≠ decide (b < 0) →
      (a / b - 1).toInt = (a / b).toInt - 1) ∧
    (b ≠ 0 → ¬ Overflows a b →
      (rest = 0 ∨ rest.sign = b.toInt.sign) ∧ |rest| < |b.toInt|) := by
  intro quotient rest
  have floor : quotient = a.toInt.fdiv b.toInt := floor_div_eq_fdiv a.toInt b.toInt
  refine ⟨?byZero, ?reduced, ?exactly, toInt_floorDiv_of_overflows, toInt_div_sub_one, ?remainder⟩
  case byZero =>
    rintro rfl
    rw [floorDiv, if_pos rfl]
  case reduced =>
    intro _
    rw [floor, floorDiv_eq_ofInt, Int64.toInt_ofInt]
    rfl
  case exactly =>
    intro nonzero
    constructor
    · intro same overflow
      have wrapped := toInt_floorDiv_of_overflows overflow
      have above := (overflows_iff fun zero => nonzero (eq_zero_iff_toInt.2 zero)).1 overflow
      omega
    · intro fits
      rw [floor, toInt_floorDiv nonzero fits]
  case remainder =>
    intro nonzero fits
    have left : rest = a.toInt.fmod b.toInt := by
      rw [Int.fmod_def, ← toInt_floorDiv nonzero fits]
    rw [left]
    exact sign_fmod _ fun zero => nonzero (eq_zero_iff_toInt.2 zero)

example : floorDiv (-7) 2 = -4 ∧ floorDiv 7 (-2) = -4 ∧ floorDiv (-7) (-2) = 3 := by decide

end Word

end MoveMachine
