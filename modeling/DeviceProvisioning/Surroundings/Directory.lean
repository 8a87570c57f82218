import DeviceProvisioning.Surroundings.Basic

/-!
# A working directory as a value

`Directory.surroundings` answers from a list of files and a list of variables with their
values.  The files lie in the working directory and in directories below it, which are there
because a file lies in them.  Above it there is only the way to the root.

A name is resolved part by part.  Empty parts and single dots stay where they are, and two
dots go up; after a file there may be no further part, not even an empty one.
-/

namespace DeviceProvisioning

open Text (Octets)

/-- **Files, and variables with their values.** -/
structure Directory where
  files : List (String × Octets) := []
  assignments : List (String × String) := []

namespace Directory

/-- What stands at a place. -/
inductive Entry where
  | file (octets : Octets)
  | directory

/-- A place in the tree. -/
inductive Place where
  /-- The parts of the name below the working directory. -/
  | below (parts : List String)
  /-- Above the working directory. -/
  | above

/-- The parts of a name. -/
def parts (name : String) : List String :=
  (name.toList.splitOn '/').map String.ofList

/-- The file at a place below the working directory. -/
def file? (d : Directory) (place : List String) : Option Octets :=
  d.files.findSome? fun (name, octets) => if parts name = place then some octets else none

/-- Whether a place below the working directory is a directory. -/
def isDirectory (d : Directory) (place : List String) : Bool :=
  place.isEmpty
    || d.files.any fun (name, _) =>
        place.isPrefixOf (parts name) && place.length < (parts name).length

/-- Resolves the parts of a name from a place on. -/
def walk (d : Directory) : Place → List String → Except FileError Entry
  | _, [] => .ok .directory
  | .above, part :: rest =>
    if part = "" ∨ part = "." ∨ part = ".." then walk d .above rest
    else if 255 < part.utf8ByteSize then .error .nameTooLong
    else .error .notFound
  | .below place, part :: rest =>
    if part = "" ∨ part = "." then walk d (.below place) rest
    else if part = ".." then
      walk d (if place.isEmpty then .above else .below place.dropLast) rest
    else if 255 < part.utf8ByteSize then .error .nameTooLong
    else
      match d.file? (place ++ [part]) with
      | some octets => if rest.isEmpty then .ok (.file octets) else .error .notADirectory
      | none =>
        if d.isDirectory (place ++ [part]) then walk d (.below (place ++ [part])) rest
        else .error .notFound

/-- **What a name leads to.** -/
def find (d : Directory) (name : String) : Except FileError Entry :=
  if '\x00' ∈ name.toList then .error .invalidName
  else if name = "" then .error .notFound
  else if 4096 ≤ name.utf8ByteSize then .error .nameTooLong
  else
    match parts name with
    | "" :: rest => d.walk .above rest
    | all => d.walk (.below []) all

/-- The octets of a file. -/
def read (d : Directory) (name : String) : Except FileError Octets :=
  match d.find name with
  | .ok (.file octets) => .ok octets
  | .ok .directory => .error .isADirectory
  | .error e => .error e

/-- The value of a variable; a name with an equals sign is the name of none. -/
def environment (d : Directory) (name : String) : Option String :=
  if name = "" ∨ '=' ∈ name.toList ∨ '\x00' ∈ name.toList then none
  else d.assignments.lookup name

/-- **The surroundings that a directory stands for.** -/
def surroundings (d : Directory) : Surroundings Id where
  readFile := d.read
  exists? name := (d.find name).toOption.isSome
  environment := d.environment

end Directory
end DeviceProvisioning
