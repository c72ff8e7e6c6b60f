import MoveMachine.Trigger

set_option autoImplicit false

namespace MoveMachine

/-- A truth value as a word: 0 for true, -1 for false. -/
def Word.ofBool (truth : Bool) : Word := if truth then 0 else -1

/--
Division toward negative infinity; a divisor of 0 gives 0. The truncated quotient is one too
large exactly when the division leaves a remainder and the signs differ.
-/
def Word.floorDiv (a b : Word) : Word :=
  if b = 0 then 0
  else if a % b ≠ 0 ∧ (decide (a < 0) ≠ decide (b < 0)) then a / b - 1
  else a / b

namespace Device

/-- A device that computes with `A` and `B`, read in this order. -/
def binary (op : Word → Word → Word) : Script :=
  .reading (.name "A") fun a => .reading (.name "B") fun b => .done (op a b)

/-- The negation of `C`: false if it holds 0, true for every other word. -/
def negation : Script := .reading (.name "C") fun c => .done (Word.ofBool (c != 0))

/-- Reads `A` if `C` holds 0 and `B` otherwise; the other is not read. -/
def selection : Script :=
  .reading (.name "C") fun c => .reading (.name (if c = 0 then "A" else "B")) .done

def arithmetic : List (String × Script) :=
  [("add", binary (· + ·)), ("sub", binary (· - ·)), ("mul", binary (· * ·)),
    ("div", binary Word.floorDiv), ("gt", binary fun a b => Word.ofBool (a > b)),
    ("lt", binary fun a b => Word.ofBool (a < b)), ("eq", binary fun a b => Word.ofBool (a = b)),
    ("xor", binary (· ^^^ ·)), ("not", negation), ("ter", selection)]

end Device

end MoveMachine
