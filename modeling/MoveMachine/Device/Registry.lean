import MoveMachine.ConfigError
import MoveMachine.Device.Arithmetic

set_option autoImplicit false

namespace MoveMachine

structure Registry where
  reads : Std.ExtTreeMap String ReadTrigger compare := ∅
  writes : Std.ExtTreeMap String WriteTrigger compare := ∅
  deriving Inhabited

namespace Device

def getchar : Script := .host Host.getWord .done

def putchar (value : Word) : Script := .host (fun host => (0, host.putWord value)) .done

def standardReads : List (String × Script) := arithmetic ++ [("getchar", getchar)]

def standardWrites : List (String × (Word → Script)) := [("putchar", putchar)]

end Device

def Wiring.standard : Wiring where
  reads := (Device.standardReads.map (·.2)).toArray
  writes := (Device.standardWrites.map (·.2)).toArray

namespace Registry

/-- The standard devices, each labeled with its own name. -/
def standard : Registry where
  reads := .ofList (Device.standardReads.mapIdx fun id device =>
    (device.1, ⟨some device.1, id⟩)) compare
  writes := .ofList (Device.standardWrites.mapIdx fun id device =>
    (device.1, ⟨some device.1, id⟩)) compare

def insertRead (registry : Registry) (name : String) (trigger : ReadTrigger) : Registry :=
  { registry with reads := registry.reads.insert name trigger }

def insertWrite (registry : Registry) (name : String) (trigger : WriteTrigger) : Registry :=
  { registry with writes := registry.writes.insert name trigger }

def read (registry : Registry) (name : String) : Except ConfigError ReadTrigger :=
  match registry.reads[name]? with
  | some trigger => .ok trigger
  | none => .error (.unknownDevice name)

def write (registry : Registry) (name : String) : Except ConfigError WriteTrigger :=
  match registry.writes[name]? with
  | some trigger => .ok trigger
  | none => .error (.unknownDevice name)

def readNames (registry : Registry) : List String := registry.reads.keys

def writeNames (registry : Registry) : List String := registry.writes.keys

end Registry

end MoveMachine
