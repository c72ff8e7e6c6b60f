import MoveMachine.ConfigError
import MoveMachine.SymbolTable
import MoveMachine.Text.Inline

set_option autoImplicit false

namespace MoveMachine

inductive Literal where
  | number (value : Word)
  | char (value : Char)
  | symbolRef (symbol : String)
  deriving DecidableEq, Inhabited

namespace Literal

def parse (text : String) : Except ConfigError Literal :=
  match Decimal.integer? text.toList, text.toList with
  | some value, _ =>
    match Word.ofInt? value with
    | some word => .ok (.number word)
    | none => .error (.invalidLiteral text)
  | none, [c] => .ok (.char c)
  | none, '@' :: first :: rest => .ok (.symbolRef (String.ofList (first :: rest)))
  | none, _ => .error (.invalidLiteral text)

def resolve (symbols : SymbolTable) : Literal → Except ConfigError Word
  | .number value => .ok value
  | .char value => .ok (Word.ofChar value)
  | .symbolRef symbol =>
    match (symbols.resolve symbol).bind Word.ofAddress? with
    | some word => .ok word
    | none => .error (.invalidLiteral ("@" ++ symbol))

def display : Literal → String
  | .number value => Decimal.ofWord value
  | .char value => Text.Quoted.ofChar value
  | .symbolRef symbol => "@" ++ symbol

def describe : Literal → String
  | .number value => Text.Inline.wrap "Number" (Decimal.ofWord value)
  | .char value => Text.Inline.wrap "Char" (Text.Quoted.ofChar value)
  | .symbolRef symbol => Text.Inline.wrap "SymbolRef" (Text.Quoted.ofString symbol)

end Literal

end MoveMachine
