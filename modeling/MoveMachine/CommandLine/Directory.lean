import MoveMachine.CommandLine.Files
import Std.Data.ExtTreeMap

/-!
A directory of files held as data, through which commands can be carried out without a real
one. It holds files only. Of what lies outside of it, only the directories above it and the
empty devices of the system are known: a file elsewhere is missing, and what is written there
is not kept. A path is followed part by part, and every part but the last has to be a
directory.
-/

set_option autoImplicit false

namespace MoveMachine.CommandLine

structure Directory where
  files : Std.ExtTreeMap String String compare := ∅

inductive Target where
  /-- A directory, be it this one or one above it. -/
  | directory
  /-- A name in this directory, whether or not there is a file of that name. -/
  | entry (name : String)
  /-- A name in a directory above. -/
  | outside (name : String)
  /-- A device that reads as empty and keeps nothing. -/
  | emptyDevice
  deriving DecidableEq, Inhabited

/-- The parts of the paths to the empty devices. Nothing stands in the standard input. -/
def emptyDevices : List (List String) := [["dev", "null"], ["dev", "stdin"]]

def isLongName (name : String) : Bool := 255 < name.utf8ByteSize

def isLongPath (path : String) : Bool := 4095 < path.utf8ByteSize

namespace Directory

/--
Follows the parts of a path from this directory or from one above it. A name that is not the
last part would have to be a directory.
-/
def follow (directory : Directory) (inside : Bool) : List String → Except FileError Target
  | [] => .ok .directory
  | "." :: rest => directory.follow inside rest
  | ".." :: rest => directory.follow false rest
  | [name] => .ok (if inside then .entry name else .outside name)
  | name :: _ =>
    .error (if isLongName name then .nameTooLong
      else if inside ∧ directory.files.contains name then .notDirectory
      else .missing)

/-- What a path leads to. A path that begins with a slash begins above, an empty one nowhere. -/
def locate (directory : Directory) (path : String) : Except FileError Target :=
  let parts := (path.splitOn "/").filter (· != "")
  if path = "" then .error .missing
  else if isLongPath path then .error .nameTooLong
  else if path.startsWith "/" ∧ parts ∈ emptyDevices then .ok .emptyDevice
  else directory.follow (!path.startsWith "/") parts

/-- The text that a path leads to. Only a directory may have a slash behind it. -/
def readAt (directory : Directory) (path : String) : Except FileError String := do
  let text ← match ← directory.locate path with
    | .directory => throw .isDirectory
    | .emptyDevice => pure ""
    | .outside name => throw (if isLongName name then .nameTooLong else .missing)
    | .entry name =>
      match directory.files[name]? with
      | none => throw (if isLongName name then .nameTooLong else .missing)
      | some text => pure text
  if path.endsWith "/" then throw .notDirectory else return text

/-- The directory with a text where a path leads, in place of any before it. -/
def writeAt (directory : Directory) (path text : String) : Except FileError Directory := do
  let target ← directory.locate path
  if path.endsWith "/" then throw .isDirectory
  match target with
  | .directory => throw .isDirectory
  | .emptyDevice => return directory
  | .outside name => if isLongName name then throw .nameTooLong else return directory
  | .entry name =>
    if isLongName name then throw .nameTooLong else return ⟨directory.files.insert name text⟩

def read (path : String) : StateM Directory (Except FileError String) := do
  return (← get).readAt path

def write (path text : String) : StateM Directory (Except FileError Unit) := do
  match (← get).writeAt path text with
  | .error error => return .error error
  | .ok directory => do
    set directory
    return .ok ()

def access : FileAccess (StateM Directory) := ⟨read, write⟩

def changedSince (directory before : Directory) : List (String × String) :=
  directory.files.toList.filter fun file => before.files[file.1]? != some file.2

end Directory

end MoveMachine.CommandLine
