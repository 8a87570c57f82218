import DeviceProvisioning.CommandLine.Help
import DeviceProvisioning.Configuration.File
import DeviceProvisioning.Link.Network
import DeviceProvisioning.Rehearsal.Basic

/-!
# The program

`run` does what a command line asks for, in given surroundings and over a given network, and
says what is printed and how the program exits: with 0 when all went well, with 1 when
something failed, and with 2 when the command line cannot be understood.

The configuration is the file that is named, or else the first of `defaultFiles` that is
there.  A registration that fails prints nothing, and one that succeeds prints the record of
the device.
-/

namespace DeviceProvisioning.CommandLine

open Link (Network)
open Registration (Verdict)
open Rehearsal (Report)

/-- **How the program ends.** -/
structure Outcome where
  exitCode : Nat
  output : String := ""
  complaint : Option String := none
deriving DecidableEq

namespace Outcome

/-- All went well. -/
def success (output : String) : Outcome :=
  { exitCode := 0, output }

/-- Something failed, after this had been printed. -/
def failure (complaint : String) (output : String := "") : Outcome :=
  { exitCode := 1, output, complaint := some complaint }

/-- The command line cannot be understood. -/
def misuse : Outcome :=
  { exitCode := 2, complaint := some "unusable arguments; try --help" }

end Outcome

/-! ## Registering -/

/-- What makes a rehearsal behave as the network does. -/
def script (network : Network) (settings : Session.Settings) (request : Registration.Request)
    (limit : Option Time.Millis) : List Rehearsal.Step :=
  let connecting : List Rehearsal.Step :=
    match Link.connect network (settings.parameters request.registrationId) with
    | .ok () => []
    | .error (.refused e) => [.failNextConnect e]
    | .error .outOfRange => [.holdConnects true]
  connecting ++ [.register request limit]

/-- The verdict among the results that are reported. -/
def verdict? (reports : List Report) : Option Verdict :=
  reports.findSome? fun report =>
    report.done.findSome? fun (_, _, result) =>
      match result with
      | .verdict v => some v
      | _ => none

/-- **What a registration over a network comes to.** -/
def register (network : Network) (settings : Session.Settings) (request : Registration.Request)
    (limit : Option Time.Millis) : Outcome :=
  let (reports, _) :=
    (Rehearsal.ofSession settings none).run (script network settings request limit)
  match verdict? reports with
  | some (.ok record) => .success (record.toJson.renderPretty ++ "\n")
  | some (.error problem) => .failure ("Command failed: " ++ problem.message)
  | none => .failure "Command failed: no answer"

/-! ## Tasks -/

/-- The request of a configuration, with the payload that the command line gives. -/
def requestOf (c : Configuration) : Option String → Option Registration.Request
  | none => some c.request
  | some text => (Json.ofText? text).map fun v => { c.request with payload := some v }

/-- The configuration as text, after its heading. -/
def display (c : Configuration) : Outcome :=
  let heading := "Current configuration:\n"
  match c.toToml? with
  | some table => .success (heading ++ table.render ++ "\n")
  | none => .failure "Command failed: the payload holds a null" heading

section

variable {m : Type → Type} [Monad m]

/-- The files in which a configuration is looked for, in this order. -/
def defaultFiles : List String :=
  ["dps.toml", "config/dps.toml"]

/-- The file of the configuration. -/
def configFile? (s : Surroundings m) : Option String → m (Option String)
  | some path => return some path
  | none => defaultFiles.findM? s.exists?

/-- Does a task with its configuration. -/
def perform (s : Surroundings m) (network : Network) (c : Configuration) : Task → m Outcome
  | .config false => return .success ""
  | .config true => return display c
  | .register payload => do
    match requestOf c payload with
    | none => return .failure "Command failed: the payload is not JSON"
    | some request =>
      match ← (c.settings s).run with
      | .error e => return .failure ("Command failed: " ++ e.message)
      | .ok settings => return register network settings request c.timeLimit

/-- **What the program does.** -/
def run (s : Surroundings m) (network : Network) (args : List String) : m Outcome := do
  match Request.ofArguments args with
  | .misuse => return .misuse
  | .help about => return .success about.helpText
  | .version => return .success versionText
  | .run configFile _ task =>
    match ← configFile? s configFile with
    | none =>
      return .failure
        "no configuration file found; pass one with -c/--config or create dps.toml"
    | some path =>
      match ← (Configuration.load s path).run with
      | .error e => return .failure ("Failed to load configuration: " ++ e.message)
      | .ok c => perform s network c task

end

end DeviceProvisioning.CommandLine
