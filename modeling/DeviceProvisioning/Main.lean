import DeviceProvisioning.CommandLine.Program

/-!
# The command line

Asks the machine for what the program needs, and prints what it says.  This build has no
sockets, so every broker is out of reach.
-/

namespace DeviceProvisioning

/-- The failure that the machine reports. -/
def FileError.ofIO : IO.Error → FileError
  | .noFileOrDirectory .. => .notFound
  | .inappropriateType _ 21 _ => .isADirectory
  | .inappropriateType _ 20 _ => .notADirectory
  | .invalidArgument _ 36 _ => .nameTooLong
  | e => .other (toString e)

/-- Reads a file of the machine. -/
def readMachineFile (path : String) : IO (Except FileError Text.Octets) := do
  if path.toList.contains '\x00' then return .error .invalidName
  match ← (IO.FS.readBinFile path).toBaseIO with
  | .ok bytes => return .ok bytes.toList
  | .error e => return .error (.ofIO e)

/-- **The machine that runs the program.** -/
def Surroundings.machine : Surroundings IO where
  readFile := readMachineFile
  exists? path := return (← (IO.FS.realPath path).toBaseIO).toOption.isSome
  environment := fun name => IO.getEnv name

end DeviceProvisioning

open DeviceProvisioning

/-- The program. -/
def main (args : List String) : IO UInt32 := do
  let outcome ← CommandLine.run Surroundings.machine Link.isolated args
  (← IO.getStdout).putStr outcome.output
  for complaint in outcome.complaint do
    (← IO.getStderr).putStrLn complaint
  return outcome.exitCode.toUInt32
