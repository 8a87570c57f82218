/-!
# Logging

How much is logged, and in what format, is chosen by name, in either case of ASCII letters;
a name that is not known means the default.  Flags on the command line choose a level by
their number.
-/

namespace DeviceProvisioning.Logging

/-- The layout of log lines. -/
inductive Format where
  | json
  | pretty
  | compact
deriving DecidableEq

/-- How much is logged. -/
inductive Level where
  | error
  | warn
  | info
  | debug
  | trace
deriving DecidableEq

/-- The format with this name; JSON is the default. -/
def Format.ofName (name : String) : Format :=
  match name.toLower with
  | "pretty" => .pretty
  | "compact" => .compact
  | _ => .json

namespace Level

/-- The name of a level. -/
def name : Level → String
  | error => "ERROR"
  | warn => "WARN"
  | info => "INFO"
  | debug => "DEBUG"
  | trace => "TRACE"

/-- The level with this name; informational messages are the default. -/
def ofName (name : String) : Level :=
  match name.toUpper with
  | "ERROR" => .error
  | "WARN" => .warn
  | "DEBUG" => .debug
  | "TRACE" => .trace
  | _ => .info

/-- The level that a number of flags asks for, if there are any. -/
def ofFlags : Nat → Option Level
  | 0 => none
  | 1 => some .debug
  | _ => some .trace

end Level
end DeviceProvisioning.Logging
