import DeviceProvisioning.CommandLine.Arguments

/-!
# Help texts

What the program prints when it is asked for help or for its version.
-/

namespace DeviceProvisioning.CommandLine

/-- The name of the program and its version. -/
def versionText : String :=
  "dps-mqtt 0.1.0\n"

/-- Lines, each with a line break at its end. -/
def unlines (lines : List String) : String :=
  String.join (lines.map (· ++ "\n"))

/-- **The help on a subject.** -/
def Subject.helpText : Subject → String
  | program => unlines
    ["Register a device with the provisioning service over MQTT",
     "",
     "Usage: dps-mqtt [OPTIONS] <COMMAND>",
     "",
     "Commands:",
     "  register  Register the configured device and print its assignment",
     "  config    Validate the configuration",
     "  help      Print this message or the help of the given subcommand(s)",
     "",
     "Options:",
     "  -c, --config <FILE>  Configuration file path",
     "  -v, --verbose...     Verbose logging (-v debug, -vv trace)",
     "  -h, --help           Print help",
     "  -V, --version        Print version"]
  | register => unlines
    ["Register the configured device and print its assignment",
     "",
     "Usage: dps-mqtt register [OPTIONS]",
     "",
     "Options:",
     "      --payload <JSON>  Custom allocation payload as JSON, replacing the configured one",
     "  -h, --help            Print help"]
  | config => unlines
    ["Validate the configuration",
     "",
     "Usage: dps-mqtt config [OPTIONS]",
     "",
     "Options:",
     "      --show  Show current configuration",
     "  -h, --help  Print help"]
  | help => unlines
    ["Print this message or the help of the given subcommand(s)",
     "",
     "Usage: dps-mqtt help [COMMAND]...",
     "",
     "Arguments:",
     "  [COMMAND]...  Print help for the subcommand(s)"]

end DeviceProvisioning.CommandLine
