import MoveMachine.Decimal
import MoveMachine.Json.Basic

set_option autoImplicit false

namespace MoveMachine.Json

/-- One token. A string is kept as it is spelled between its quotes. -/
inductive Token where
  | openArray
  | closeArray
  | openObject
  | closeObject
  | colon
  | comma
  | quoted (spelling : List Char)
  | null
  | integer (value : Int)
  deriving DecidableEq, Inhabited

namespace Token

def ofPunctuation? : Char → Option Token
  | '[' => some .openArray
  | ']' => some .closeArray
  | '\x7b' => some .openObject
  | '\x7d' => some .closeObject
  | ':' => some .colon
  | ',' => some .comma
  | _ => none

def isBlank (c : Char) : Bool := c == ' ' || c == '\n' || c == '\t' || c == '\r'

/--
The token of a run of other characters: `null`, or an integer in its only spelling, without
leading zeros and without a sign before zero.
-/
def ofWord? (word : List Char) : Option Token :=
  if word = ['n', 'u', 'l', 'l'] then some .null
  else do
    let value ← Decimal.integer? word
    if (toString value).toList = word then some (.integer value) else none

/-- Where a scan stands. Characters read so far are kept latest first. -/
inductive Mode where
  | between
  | inWord (read : List Char)
  | inQuotes (read : List Char) (escaped : Bool)
  deriving DecidableEq, Inhabited

/-- A scan in progress, with its tokens latest first. -/
structure Scan where
  tokens : List Token := []
  mode : Mode := .between
  deriving DecidableEq, Inhabited

namespace Scan

def endWord (scan : Scan) : Option Scan :=
  match scan.mode with
  | .between => some scan
  | .inWord read => (ofWord? read.reverse).map fun token => ⟨token :: scan.tokens, .between⟩
  | .inQuotes .. => none

def step (scan : Scan) (c : Char) : Option Scan :=
  match scan.mode with
  | .inQuotes read true => some ⟨scan.tokens, .inQuotes (c :: read) false⟩
  | .inQuotes read false =>
    if c = '"' then some ⟨.quoted read.reverse :: scan.tokens, .between⟩
    else some ⟨scan.tokens, .inQuotes (c :: read) (c == '\\')⟩
  | mode =>
    if isBlank c then scan.endWord
    else if c = '"' then scan.endWord.map fun ended => ⟨ended.tokens, .inQuotes [] false⟩
    else match ofPunctuation? c with
      | some token => scan.endWord.map fun ended => ⟨token :: ended.tokens, .between⟩
      | none =>
        match mode with
        | .inWord read => some ⟨scan.tokens, .inWord (c :: read)⟩
        | _ => some ⟨scan.tokens, .inWord [c]⟩

end Scan

def scan? (text : List Char) : Option (List Token) := do
  let scan ← (← text.foldlM Scan.step {}).endWord
  return scan.tokens.reverse

end Token

end MoveMachine.Json
