import MoveMachine.Json.Token

set_option autoImplicit false

namespace MoveMachine.Json

/-- An open array or object with a value under way in it. What came before is latest first. -/
inductive Frame where
  | item (before : List Json)
  | member (before : List (String × Json)) (key : String)
  deriving Inhabited

/-- What the parser has seen last, and so what may come next. -/
inductive Place where
  /-- A value must come. -/
  | value
  | openedArray
  /-- An item ended. -/
  | afterItem (items : List Json)
  | openedObject
  /-- A comma in an object: a key must come. -/
  | key (before : List (String × Json))
  /-- A key ended: a colon must come. -/
  | afterKey (before : List (String × Json)) (key : String)
  /-- A member ended. -/
  | afterMember (members : List (String × Json))
  /-- The outermost value ended. -/
  | finished (value : Json)
  deriving Inhabited

structure Parse where
  place : Place := .value
  stack : List Frame := []
  deriving Inhabited

namespace Parse

def deliver (value : Json) : List Frame → Parse
  | [] => ⟨.finished value, []⟩
  | .item before :: stack => ⟨.afterItem (value :: before), stack⟩
  | .member before key :: stack => ⟨.afterMember ((key, value) :: before), stack⟩

def begin? (stack : List Frame) : Token → Option Parse
  | .null => some (deliver .null stack)
  | .integer value => some (deliver (.integer value) stack)
  | .quoted spelling =>
    (unescape spelling).map fun text => deliver (.text (String.ofList text)) stack
  | .openArray => some ⟨.openedArray, stack⟩
  | .openObject => some ⟨.openedObject, stack⟩
  | _ => none

def step : Parse → Token → Option Parse
  | ⟨.value, stack⟩, token => begin? stack token
  | ⟨.openedArray, stack⟩, .closeArray => some (deliver (.array []) stack)
  | ⟨.openedArray, stack⟩, token => begin? (.item [] :: stack) token
  | ⟨.afterItem items, stack⟩, .closeArray => some (deliver (.array items.reverse) stack)
  | ⟨.afterItem items, stack⟩, .comma => some ⟨.value, .item items :: stack⟩
  | ⟨.openedObject, stack⟩, .closeObject => some (deliver (.object []) stack)
  | ⟨.openedObject, stack⟩, .quoted key => some ⟨.afterKey [] (String.ofList key), stack⟩
  | ⟨.key before, stack⟩, .quoted key => some ⟨.afterKey before (String.ofList key), stack⟩
  | ⟨.afterKey before key, stack⟩, .colon => some ⟨.value, .member before key :: stack⟩
  | ⟨.afterMember members, stack⟩, .closeObject =>
    some (deliver (.object members.reverse) stack)
  | ⟨.afterMember members, stack⟩, .comma => some ⟨.key members, stack⟩
  | _, _ => none

def result? (parse : Parse) : Option Json :=
  match parse.place with
  | .finished value => some value
  | _ => none

end Parse

def ofTokens? (tokens : List Token) : Option Json := do
  (← tokens.foldlM Parse.step {}).result?

def parse? (text : String) : Option Json := (Token.scan? text.toList).bind ofTokens?

end MoveMachine.Json
