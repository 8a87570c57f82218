import DeviceProvisioning.Text.Utf8

/-!
# The machine a program runs on

A program asks its surroundings for files and for environment variables, and for nothing
else.  `Surroundings m` answers in the monad `m`: the command line asks the machine, and a
rehearsal asks a `Directory`, which is a value.
-/

namespace DeviceProvisioning

open Text (Octets)

/-- **Why a file could not be read.** -/
inductive FileError where
  | notFound
  | notADirectory
  | isADirectory
  | nameTooLong
  /-- The name holds an octet that no name can hold. -/
  | invalidName
  | notText
  | other (text : String)
deriving DecidableEq

/-- The wording of a failure. -/
def FileError.message : FileError → String
  | notFound => "No such file or directory (os error 2)"
  | notADirectory => "Not a directory (os error 20)"
  | isADirectory => "Is a directory (os error 21)"
  | nameTooLong => "File name too long (os error 36)"
  | invalidName => "file name contained an unexpected NUL byte"
  | notText => "stream did not contain valid UTF-8"
  | other text => text

/-- **What a program can learn from the machine it runs on.** -/
structure Surroundings (m : Type → Type) where
  readFile : String → m (Except FileError Octets)
  exists? : String → m Bool
  environment : String → m (Option String)

namespace Surroundings

variable {m : Type → Type} [Monad m]

/-- Reads a file that holds text. -/
def readText (s : Surroundings m) (path : String) : m (Except FileError String) := do
  match ← s.readFile path with
  | .error e => return .error e
  | .ok octets =>
    match Text.Utf8.decode? octets with
    | some text => return .ok text
    | none => return .error .notText

end Surroundings
end DeviceProvisioning
