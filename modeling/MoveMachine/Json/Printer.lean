import MoveMachine.Json.Basic

set_option autoImplicit false

namespace MoveMachine.Json

def quote (spelling : List Char) : List Char := '"' :: spelling ++ ['"']

def newline (depth : Nat) : List Char := '\n' :: List.replicate (2 * depth) ' '

def enclose (opening closing : Char) (depth : Nat) : List (List Char) → List Char
  | [] => [opening, closing]
  | first :: rest =>
    opening :: newline (depth + 1) ++ first ++
      rest.flatMap (fun part => ',' :: newline (depth + 1) ++ part) ++ newline depth ++ [closing]

mutual

def print (depth : Nat) : Json → List Char
  | .null => ['n', 'u', 'l', 'l']
  | .integer value => (toString value).toList
  | .text value => quote (escape value.toList)
  | .array items => enclose '[' ']' depth (printItems (depth + 1) items)
  | .object members => enclose '\x7b' '\x7d' depth (printMembers (depth + 1) members)

def printItems (depth : Nat) : List Json → List (List Char)
  | [] => []
  | item :: rest => print depth item :: printItems depth rest

def printMembers (depth : Nat) : List (String × Json) → List (List Char)
  | [] => []
  | (key, value) :: rest =>
    (quote key.toList ++ ':' :: ' ' :: print depth value) :: printMembers depth rest

end

def render (value : Json) : String := String.ofList (value.print 0)

end MoveMachine.Json
