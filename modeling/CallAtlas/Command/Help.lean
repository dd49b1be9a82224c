import CallAtlas.Command.Invocation
import CallAtlas.Graph.Build

/-!
# What the command line says about itself
-/

namespace CallAtlas.Command

def versionLine : String := "docgraph " ++ version

def helpText : String :=
  "Cross-file call graphs for JS/TS projects, with staleness checks\n\n" ++
  "Usage: docgraph [OPTIONS] <COMMAND>\n\n" ++
  "Commands:\n" ++
  "  init     Write a default docgraph.toml [-p, --path <PATH>]\n" ++
  "  build    Build the call graph and write a snapshot\n" ++
  "           [-s, --source <SOURCE>]... [-o, --output <OUTPUT>]\n" ++
  "  check    Report units whose code changed since the last build\n" ++
  "           [-s, --snapshot <SNAPSHOT>] [--fail-on-stale]\n" ++
  "  symbols  List the units extracted from one file <FILE>\n" ++
  "  help     Print this message\n\n" ++
  "Options:\n" ++
  "  -c, --config <CONFIG>  Path to configuration file\n" ++
  "  -v, --verbose          Enable verbose logging\n" ++
  "  -h, --help             Print help\n" ++
  "  -V, --version          Print version\n"

def UsageError.text : UsageError → String
  | helpAsked | nothingGiven => helpText
  | versionAsked => versionLine ++ "\n"
  | missingCommand => "error: a command is missing\n\n" ++ helpText
  | unknownCommand => "error: there is no such command\n\n" ++ helpText
  | unknownArgument => "error: an argument was not expected\n\n" ++ helpText
  | missingOperand => "error: a required argument is missing\n\n" ++ helpText
  | invalidValue => "error: an option has no value\n\n" ++ helpText
  | givenTwice => "error: an option was given more than once\n\n" ++ helpText
  | unwantedValue => "error: an option does not take a value\n\n" ++ helpText

/-- A command line that only asks for information is no mistake. -/
def UsageError.isRequest : UsageError → Bool
  | helpAsked | versionAsked => true
  | _ => false

end CallAtlas.Command
