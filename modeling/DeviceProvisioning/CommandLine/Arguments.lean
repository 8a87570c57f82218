/-!
# Command-line arguments

A **level** of the command line is a list of arguments and the switches it knows.  The
program has one, and each of its commands has one of its own, which begins after the name of
the command.

Arguments are taken from left to right.  A switch is written in full after two hyphens or by
a letter after one, and letters may stand together.  A value follows its switch, after an
equals sign or right after the letter, or as the next argument, which must then not look like
a switch itself; the name of a command may be a value.  After two hyphens by themselves
nothing may follow.

A value that is the next argument is **settled** only when the next switch is taken or the
level ends, and the level of the program ends after that of its command.  So a request for
help in a command comes before a complaint about such a value.
-/

namespace DeviceProvisioning.CommandLine

/-- What a switch does. -/
inductive SwitchKind where
  | help
  | version
  /-- May be given any number of times. -/
  | counted
  /-- May be given once. -/
  | flag
  /-- Has a value, and may be given once. -/
  | valued (mayBeEmpty : Bool)
deriving DecidableEq

/-- **A switch.** -/
structure Switch where
  name : String
  letter : Option Char := none
  kind : SwitchKind

/-- Why a command line is not carried out. -/
inductive Stop where
  | help
  | version
  | misuse
deriving DecidableEq

/-- **How far a level has been read**: the switches that were given, with their values, and
the switch whose value is not settled. -/
structure Progress where
  given : List (String × String) := []
  open? : Option (Switch × Option String) := none

/-- A reading of a level that can stop. -/
abbrev Reading := Except Stop

namespace Progress

/-- Records a switch with its value. -/
def record (s : Switch) (value : String) (p : Progress) : Reading Progress :=
  let repeated := p.given.any (·.1 == s.name)
  match s.kind with
  | .help => .error .help
  | .version => .error .version
  | .counted => .ok { p with given := p.given ++ [(s.name, value)] }
  | .flag =>
    if repeated then .error .misuse else .ok { p with given := p.given ++ [(s.name, value)] }
  | .valued mayBeEmpty =>
    if repeated || (value.isEmpty && !mayBeEmpty) then .error .misuse
    else .ok { p with given := p.given ++ [(s.name, value)] }

/-- **Settles the switch that waits for it.** -/
def settle (p : Progress) : Reading Progress :=
  match p.open? with
  | none => .ok p
  | some (_, none) => .error .misuse
  | some (s, some value) => { p with open? := none }.record s value

/-- Takes a switch without a value of its own. -/
def take (s : Switch) (p : Progress) : Reading Progress := do
  let p ← p.settle
  match s.kind with
  | .valued _ => return { p with open? := some (s, none) }
  | _ => p.record s ""

/-- Takes a switch with the value that is written with it. -/
def takeWith (s : Switch) (value : String) (p : Progress) : Reading Progress := do
  let p ← p.settle
  match s.kind with
  | .valued _ => p.record s value
  | _ => throw .misuse

/-- The value of a switch, if it was given. -/
def value? (p : Progress) (name : String) : Option String :=
  p.given.lookup name

/-- How often a switch was given. -/
def count (p : Progress) (name : String) : Nat :=
  (p.given.filter (·.1 == name)).length

/-- Whether a switch still has no value. -/
def awaitsValue (p : Progress) : Bool :=
  match p.open? with
  | some (_, none) => true
  | _ => false

/-- Gives a value to the switch that has none. -/
def supply (value : String) (p : Progress) : Progress :=
  { p with open? := p.open?.map fun (s, _) => (s, some value) }

end Progress

/-- A switch in full, after its two hyphens. -/
def takeName (switches : List Switch) (text : List Char) (p : Progress) : Reading Progress :=
  let name := String.ofList (text.takeWhile (· != '='))
  match switches.find? (·.name == name), text.dropWhile (· != '=') with
  | none, _ => .error .misuse
  | some s, [] => p.take s
  | some s, _ :: value => p.takeWith s (String.ofList value)

/-- Letters after one hyphen. -/
def takeLetters (switches : List Switch) : List Char → Progress → Reading Progress
  | [], p => .ok p
  | c :: rest, p =>
    match switches.find? (·.letter == some c), rest with
    | none, _ => .error .misuse
    | some s, [] => p.take s
    | some s, next :: after =>
      match s.kind with
      | .valued _ => p.takeWith s (String.ofList (if next = '=' then after else next :: after))
      | _ => do takeLetters switches rest (← p.take s)

/-- **Reads a level,** up to its end or to the name of a command. -/
def readLevel (switches : List Switch) (commands : List String) :
    List String → Progress → Reading (Progress × Option (String × List String))
  | [], p => .ok (p, none)
  | arg :: rest, p =>
    if !p.awaitsValue && commands.contains arg then .ok (p, some (arg, rest))
    else
      match arg.toList with
      | ['-', '-'] => if rest.isEmpty then .ok (p, none) else .error .misuse
      | '-' :: '-' :: text => do readLevel switches commands rest (← takeName switches text p)
      | '-' :: c :: text => do
        readLevel switches commands rest (← takeLetters switches (c :: text) p)
      | _ =>
        if p.awaitsValue then readLevel switches commands rest (p.supply arg)
        else .error .misuse

/-! ## The program's own command line -/

/-- **What the program can be asked to do.** -/
inductive Task where
  /-- Register the device, with a payload that replaces the configured one. -/
  | register (payload : Option String)
  /-- Check the configuration, and show it. -/
  | config (shown : Bool)
deriving DecidableEq

/-- What help is about. -/
inductive Subject where
  | program
  | register
  | config
  | help
deriving DecidableEq

/-- **What a command line asks for.** -/
inductive Request where
  | run (configFile : Option String) (verbosity : Nat) (task : Task)
  | help (about : Subject)
  | version
  | misuse
deriving DecidableEq

/-- The switch that asks for help. -/
def helpSwitch : Switch := ⟨"help", some 'h', .help⟩

/-- The switches of the program. -/
def programSwitches : List Switch :=
  [⟨"config", some 'c', .valued false⟩, ⟨"verbose", some 'v', .counted⟩, helpSwitch,
   ⟨"version", some 'V', .version⟩]

/-- The switches of the command that registers. -/
def registerSwitches : List Switch :=
  [⟨"payload", none, .valued true⟩, helpSwitch]

/-- The switches of the command that checks the configuration. -/
def configSwitches : List Switch :=
  [⟨"show", none, .flag⟩, helpSwitch]

/-- The commands. -/
def commands : List String :=
  ["register", "config", "help"]

/-- What help is asked for by the names of commands. -/
def subject? : List String → Option Subject
  | [] => some .program
  | ["register"] => some .register
  | ["config"] => some .config
  | ["help"] => some .help
  | _ => none

/-- What a command line that stops asks for. -/
def Stop.request (about : Subject) : Stop → Request
  | help => .help about
  | version => .version
  | misuse => .misuse

/-- The level of a command, as a task. -/
def readTask (name : String) (args : List String) : Except Request Task := do
  let about : Subject := if name = "register" then .register else .config
  let switches := if name = "register" then registerSwitches else configSwitches
  let read : Reading Progress := do (← readLevel switches [] args {}).1.settle
  let p ← read.mapError (·.request about)
  return if name = "register" then .register (p.value? "payload")
    else .config (p.count "show" != 0)

/-- The level of the program and that of its command. -/
def read (args : List String) : Except Request Request := do
  let (p, rest) ←
    (readLevel programSwitches commands args {}).mapError (·.request .program)
  match rest with
  | none => throw .misuse
  | some ("help", names) => return ((subject? names).map Request.help).getD .misuse
  | some (name, args) =>
    let task ← readTask name args
    let p ← p.settle.mapError (·.request .program)
    return .run (p.value? "config") (p.count "verbose") task

/-- **What a command line asks for.** -/
def Request.ofArguments (args : List String) : Request :=
  match read args with
  | .ok request => request
  | .error request => request

end DeviceProvisioning.CommandLine
