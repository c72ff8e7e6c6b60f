set_option autoImplicit false

namespace MoveMachine.Text.Inline

def wrap (name inner : String) : String := name ++ "(" ++ inner ++ ")"

def optional : Option String → String
  | none => "None"
  | some inner => wrap "Some" inner

def list (items : List String) : String := "[" ++ ", ".intercalate items ++ "]"

def entry (name value : String) : String := name ++ ": " ++ value

def record (name : String) (fields : List (String × String)) : String :=
  name ++ " \x7b " ++ ", ".intercalate (fields.map fun field => entry field.1 field.2) ++ " \x7d"

def map (entries : List (String × String)) : String :=
  "\x7b" ++ ", ".intercalate (entries.map fun pair => entry pair.1 pair.2) ++ "\x7d"

end MoveMachine.Text.Inline
