/-!
The part of JSON that configuration files use: null, integers, strings, arrays and objects.
The keys of an object are kept as they are spelled between their quotes, in the order of the
text and with repetitions, since a reader may care about each of these.

Strings are spelled by `escape`, and `unescape` reads a spelling back.
-/

set_option autoImplicit false

namespace MoveMachine

inductive Json where
  | null
  | integer (value : Int)
  | text (value : String)
  | array (items : List Json)
  | object (members : List (String × Json))
  deriving Inhabited

namespace Json

/-- The escape of a character that must not stand as itself, if it has a short one. -/
def shortEscape? : Char → Option Char
  | '"' => some '"'
  | '\\' => some '\\'
  | '\x08' => some 'b'
  | '\t' => some 't'
  | '\n' => some 'n'
  | '\x0c' => some 'f'
  | '\r' => some 'r'
  | _ => none

def ofShortEscape? : Char → Option Char
  | '"' => some '"'
  | '\\' => some '\\'
  | '/' => some '/'
  | 'b' => some '\x08'
  | 't' => some '\t'
  | 'n' => some '\n'
  | 'f' => some '\x0c'
  | 'r' => some '\r'
  | _ => none

/-- One character as it is spelled: controls, the quote and the backslash are escaped. -/
def escapeChar (c : Char) : List Char :=
  match shortEscape? c with
  | some letter => ['\\', letter]
  | none =>
    if c.toNat < 0x20 then
      ['\\', 'u', '0', '0', Nat.digitChar (c.toNat / 16), Nat.digitChar (c.toNat % 16)]
    else [c]

def escape (text : List Char) : List Char := text.flatMap escapeChar

def hexDigit? (c : Char) : Option Nat :=
  if c.isDigit then some (c.toNat - '0'.toNat)
  else if 'a' ≤ c ∧ c ≤ 'f' then some (c.toNat - 'a'.toNat + 10)
  else if 'A' ≤ c ∧ c ≤ 'F' then some (c.toNat - 'A'.toNat + 10)
  else none

def unit? (a b c d : Char) : Option Nat := do
  return (((← hexDigit? a) * 16 + (← hexDigit? b)) * 16 + (← hexDigit? c)) * 16 + (← hexDigit? d)

/--
The string of a spelling. A control character must be escaped; a unit from the surrogate
range must be a high one with a low one escaped behind it.
-/
def unescape : List Char → Option (List Char)
  | [] => some []
  | '\\' :: 'u' :: a :: b :: c :: d :: rest => do
    let unit ← unit? a b c d
    if 0xd800 ≤ unit ∧ unit < 0xdc00 then
      match rest with
      | '\\' :: 'u' :: e :: f :: g :: h :: tail => do
        let low ← unit? e f g h
        if 0xdc00 ≤ low ∧ low < 0xe000 then
          return Char.ofNat (0x10000 + (unit - 0xd800) * 0x400 + (low - 0xdc00)) ::
            (← unescape tail)
        else none
      | _ => none
    else if 0xdc00 ≤ unit ∧ unit < 0xe000 then none
    else return Char.ofNat unit :: (← unescape rest)
  | '\\' :: letter :: rest => do return (← ofShortEscape? letter) :: (← unescape rest)
  | c :: rest => if c.toNat < 0x20 ∨ c = '\\' then none else do return c :: (← unescape rest)

end Json

end MoveMachine
