import DirectImports.CommandLine.Command
import DirectImports.Options.Schema
import DirectImports.Report

/-! Running a command: what it prints, its exit code and the file system after it. -/

namespace DirectImports

/-- What a command has done, before anything is printed. -/
inductive Outcome where
  | checked (root : Option Text) (result : CheckResult)
  | failed (failure : Failure)
  | printed (text : Text)
  | refused

structure CommandRun where
  system : FileSystem
  notices : List Notice
  outcome : Outcome

structure Output where
  code : Nat
  standard : Text
  error : Text
deriving DecidableEq, Repr

/-- A check prepares its configuration once more, with the root and options already known. -/
def runCheckCommand (system : FileSystem) (configuration : Configuration) : CommandRun :=
  let start := configuration.prepare system
  match start.failure with
  | some failure => ⟨system, start.notices, .failed failure⟩
  | none =>
    let run := runCheck system start.configuration
    let notices := start.notices ++ run.notices
    match run.outcome with
    | .ok result => ⟨run.system, notices, .checked start.configuration.root result⟩
    | .error failure => ⟨run.system, notices, .failed failure⟩

def runRequest (system : FileSystem) : Request → CommandRun
  | .run (.check configuration) => runCheckCommand system configuration
  | .run .schema => ⟨system, [], .printed (optionsSchema.indented ++ ['\n'])⟩
  | .help topic => ⟨system, [], .printed topic.text⟩
  | .invalid => ⟨system, [], .refused⟩

def runArguments (system : FileSystem) (arguments : List Text) : CommandRun :=
  runRequest system (.read arguments)

def finishLine (elapsed : Text) (threads filesAnalyzed : Nat) : Line :=
  [.colored .brightBlue "●".toList, .literal " Finished in ", .colored .cyan elapsed,
    .literal "ms on ", .number filesAnalyzed, .literal " files (using ", .number threads,
    .literal " threads)."]

/-- A cause behind its number; the further lines of its text are indented as far. -/
def causeText (number : Option Nat) (cause : Text) : Text :=
  let label := match number with
    | none => "    ".toList
    | some n =>
      let digits := decimal n
      List.replicate (5 - digits.length) ' ' ++ digits ++ [':', ' ']
  let indent := List.replicate (if number.isSome then 7 else 4) ' '
  label ++ cause.flatMap fun c => if c = '\n' then c :: indent else [c]

/-- The text of a failure: what was attempted, then the causes, numbered if there are several. -/
def failureText (failure : Failure) : Text :=
  match failure.chain with
  | [] => "Error: ".toList
  | [text] => "Error: ".toList ++ text ++ ['\n']
  | [text, cause] =>
    "Error: ".toList ++ text ++ "\n\nCaused by:\n".toList ++ causeText none cause ++ ['\n']
  | text :: causes =>
    "Error: ".toList ++ text ++ "\n\nCaused by:\n".toList ++
      causes.zipIdx.flatMap fun (cause, n) => causeText (some n) cause ++ ['\n']

/-- The output of a command; a check fails while anything is left to fix. -/
def CommandRun.output (run : CommandRun) (color : Bool) (elapsed : Text) (threads : Nat) :
    Output :=
  match run.outcome with
  | .checked root result =>
    let lines := resultLines run.system root result ++
      [[], finishLine elapsed threads result.filesAnalyzed]
    ⟨if countUnfixed result.warnings > 0 then 1 else 0, renderLines color lines, []⟩
  | .failed failure => ⟨1, [], failureText failure⟩
  | .printed text => ⟨0, text, []⟩
  | .refused => ⟨2, [], "error: invalid arguments, see '--help'\n".toList⟩

end DirectImports
