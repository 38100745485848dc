import DirectImports.CommandLine.Arguments

/-! Commands, and the help on them. -/

namespace DirectImports

inductive Command where
  | check (configuration : Configuration)
  | schema

inductive HelpTopic where
  | overview
  | check
  | schema
  | help
deriving DecidableEq, Repr

inductive Request where
  | run (command : Command)
  | help (topic : HelpTopic)
  | invalid

def checkSummary : String :=
  "Report barrel imports in JavaScript/TypeScript projects (and fix them with --fix)"

def schemaSummary : String :=
  "Print the JSON schema of the rule options"

def helpSummary : String :=
  "Print this message or the help of the given subcommand(s)"

def HelpTopic.lines : HelpTopic → List String
  | overview => [
    "Rewrite barrel imports into direct imports",
    "",
    "Usage: debarrel <COMMAND>",
    "",
    "Commands:",
    "  check   " ++ checkSummary,
    "  schema  " ++ schemaSummary,
    "  help    " ++ helpSummary,
    "",
    "Options:",
    "  -h, --help  Print help"]
  | check => [
    checkSummary,
    "",
    "Usage: debarrel check [OPTIONS]",
    "",
    "Options:",
    "      --root <ROOT>              Root directory of the project (defaults to git root)",
    "      --config <CONFIG>          Rule options file " ++
      "(defaults to .debarrelrc.json in the root)",
    "      --entry-glob <ENTRY_GLOB>  Only lint files whose path relative to the root " ++
      "contains this string",
    "      --fix                      Rewrite barrel imports in place",
    "  -h, --help                     Print help"]
  | schema => [
    schemaSummary,
    "",
    "Usage: debarrel schema",
    "",
    "Options:",
    "  -h, --help  Print help"]
  | help => [
    helpSummary,
    "",
    "Usage: debarrel help [COMMAND]...",
    "",
    "Arguments:",
    "  [COMMAND]...  Print help for the subcommand(s)"]

def HelpTopic.text (topic : HelpTopic) : Text :=
  topic.lines.flatMap fun line => line.toList ++ ['\n']

/-- The request of a command whose arguments are as read, or the help on it. -/
def Request.ofArguments (topic : HelpTopic) (command : Configuration → Command)
    (arguments : Except UsageProblem Configuration) : Request :=
  match arguments with
  | .ok configuration => run (command configuration)
  | .error .helpRequested => help topic
  | .error _ => invalid

def Request.helpOn : List Text → Request
  | [] => help .overview
  | [name] =>
    if name = "check".toList then help .check
    else if name = "schema".toList then help .schema
    else if name = "help".toList then help .help
    else invalid
  | _ => invalid

def Request.read : List Text → Request
  | [] => invalid
  | name :: arguments =>
    if name = "check".toList then ofArguments .check .check (readConfiguration arguments)
    else if name = "schema".toList then
      ofArguments .schema (fun _ => .schema) (readArguments [.help] arguments)
    else if name = "help".toList then helpOn arguments
    else ofArguments .overview (fun _ => .schema)
      ((readArguments [.help] [name]).bind fun _ => throw .unknownArgument)

end DirectImports
