import MoveMachine.Word

set_option autoImplicit false

namespace MoveMachine.Decimal

/-- True of a nonempty text that holds the digits 0 to 9 only. -/
def isNatural (text : List Char) : Bool := !text.isEmpty && text.all Char.isDigit

def natural? (text : List Char) : Option Nat :=
  if isNatural text then some (Nat.ofDigitChars 10 text 0) else none

def integer? : List Char → Option Int
  | '-' :: digits => (natural? digits).map fun n => -(n : Int)
  | digits => (natural? digits).map Int.ofNat

def address? (text : List Char) : Option Address := (natural? text).bind Address.ofNat?

def ofAddress (address : Address) : String := toString address.toNat

def ofWord (word : Word) : String := toString word.toInt

theorem natural?_toDigits (n : Nat) : natural? (Nat.toDigits 10 n) = some n := by
  have digits : isNatural (Nat.toDigits 10 n) = true := by
    simp only [isNatural, Bool.and_eq_true, Bool.not_eq_true', List.isEmpty_eq_false_iff,
      List.all_eq_true]
    exact ⟨Nat.toDigits_ne_nil, fun _ => Nat.isDigit_of_mem_toDigits (by decide) (by decide)⟩
  simp [natural?, digits, Nat.ofDigitChars_ten_toDigits]

theorem toList_toString_int (n : Int) :
    (toString n).toList =
      if n < 0 then '-' :: Nat.toDigits 10 n.natAbs else Nat.toDigits 10 n.natAbs := by
  cases n with
  | ofNat m =>
    rw [if_neg (by simp)]
    simp [toString, Int.repr]
  | negSucc m =>
    rw [if_pos (Int.negSucc_lt_zero m)]
    simp [toString, Int.repr]

private theorem integer?_toDigits (n : Nat) : integer? (Nat.toDigits 10 n) = some (n : Int) := by
  have read := natural?_toDigits n
  have digit : ∀ c ∈ Nat.toDigits 10 n, c.isDigit = true := by
    intro c
    exact Nat.isDigit_of_mem_toDigits (by decide) (by decide)
  have unsigned : ∀ rest, Nat.toDigits 10 n ≠ '-' :: rest := by
    intro rest begins
    rw [begins] at digit
    exact absurd (digit '-' List.mem_cons_self) (by decide)
  rw [integer?]
  · rw [read]
    rfl
  · exact unsigned

theorem integer?_toString (n : Int) : integer? (toString n).toList = some n := by
  rw [toList_toString_int]
  split
  · rename_i negative
    have magnitude : -(n.natAbs : Int) = n := by omega
    rw [integer?, natural?_toDigits]
    exact congrArg some magnitude
  · rename_i nonnegative
    have magnitude : (n.natAbs : Int) = n := by omega
    rw [integer?_toDigits, magnitude]

theorem address?_ofAddress (address : Address) :
    address? (ofAddress address).toList = some address := by
  simp [address?, ofAddress, natural?_toDigits, Address.ofNat?, UInt64.toNat_lt_size]

end MoveMachine.Decimal
