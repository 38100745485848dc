import DirectImports.Collection
import DirectImports.Configuration
import DirectImports.Rule
import DirectImports.Text.Position

/-! The check of a project: every collected file is linted on its own, and fixed if asked for. A
file that cannot be read or parsed is skipped. -/

namespace DirectImports

structure Warning where
  file : Text
  position : Position
  statement : Text
  message : Text
  replacement : Option Text
  isFixed : Bool
deriving DecidableEq, Repr

structure CheckResult where
  warnings : List Warning
  filesAnalyzed : Nat
  filesFixed : Nat
deriving DecidableEq, Repr

def countUnfixed (warnings : List Warning) : Nat :=
  warnings.countP fun warning => !warning.isFixed

/-- What the check of a file found, and the fixed text if there is one to write. -/
structure FileCheck where
  warnings : List Warning
  fixed : Option Text
deriving DecidableEq, Repr

/-- The warning of a diagnostic; nothing if its span does not fit the source. -/
def Diagnostic.warning? (diagnostic : Diagnostic) (file source : Text) (fix : Bool) :
    Option Warning := do
  return {
    file := file
    position := ← positionAt source diagnostic.span.start
    statement := ← diagnostic.span.slice source
    message := diagnostic.message
    replacement := diagnostic.fix.map Fix.replacement
    isFixed := fix && diagnostic.fix.isSome }

/-- Lints a source text. With `fix`, the text is fixed if there is anything to fix. -/
def checkSource (options : RuleOptions) (root file : Text) (fix : Bool) (source : Text) :
    Except Failure FileCheck := do
  let diagnostics ← lintSource options file source
  let name := (relativeTo? root file).getD file
  let fixes := fixesOf diagnostics
  let checked : Option FileCheck := do
    let fixed ←
      if fix && !fixes.isEmpty then (applyFixes source fixes).map some else some none
    return ⟨← diagnostics.mapM fun diagnostic => diagnostic.warning? name source fix, fixed⟩
  match checked with
  | some check => return check
  | none => throw .aborted

def checkFile (options : RuleOptions) (root : Text) (fix : Bool) (system : FileSystem)
    (file : Text) : Except Failure FileCheck := do
  let source ← (system.readText file).mapError (Failure.unreadable file)
  checkSource options root file fix source

def checkStep (options : RuleOptions) (root : Text) (fix : Bool) (system : FileSystem)
    (file : Text) : FileSystem × Except Failure FileCheck :=
  let check := checkFile options root fix system file
  match check with
  | .ok ⟨_, some text⟩ => (system.overwrite file text, check)
  | _ => (system, check)

def checkFiles (options : RuleOptions) (root : Text) (fix : Bool) (system : FileSystem) :
    List Text → FileSystem × List (Text × Except Failure FileCheck)
  | [] => (system, [])
  | file :: files =>
    let (system, check) := checkStep options root fix system file
    let (system, checks) := checkFiles options root fix system files
    (system, (file, check) :: checks)

def skipNotices (checks : List (Text × Except Failure FileCheck)) : List Notice :=
  checks.filterMap fun (file, check) =>
    match check with
    | .error failure => some (.skippedFile file failure)
    | .ok _ => none

def fileChecks (checks : List (Text × Except Failure FileCheck)) : List FileCheck :=
  checks.filterMap fun (_, check) => check.toOption

def CheckResult.ofFiles (checks : List FileCheck) : CheckResult where
  warnings := checks.flatMap FileCheck.warnings
  filesAnalyzed := checks.length
  filesFixed := checks.countP fun check => check.fixed.isSome

/-- A custom function without an answer in any file aborts a check. -/
def hasAborted (checks : List (Text × Except Failure FileCheck)) : Bool :=
  checks.any fun (_, check) =>
    match check with
    | .error .aborted => true
    | _ => false

/-- A check that has been run: the file system after it, notices, and a result or a failure. -/
structure CheckRun where
  system : FileSystem
  notices : List Notice
  outcome : Except Failure CheckResult

/-- The check of a project whose root and options are known. -/
def runCheckAt (system : FileSystem) (root : Text) (options : RuleOptions)
    (entryGlob : Option Text) (fix : Bool) : CheckRun :=
  match collectFiles system root entryGlob with
  | .error failure => ⟨system, [], .error failure⟩
  | .ok [] => ⟨system, [.noSourceFiles root], .error (.noSourceFiles root)⟩
  | .ok files =>
    let (after, checks) := checkFiles options root fix system files
    if hasAborted checks then ⟨after, [], .error .aborted⟩
    else ⟨after, skipNotices checks, .ok (.ofFiles (fileChecks checks))⟩

def runCheck (system : FileSystem) (configuration : Configuration) : CheckRun :=
  let start := configuration.prepare system
  let known : Except Failure (Text × RuleOptions) := do
    if let some failure := start.failure then throw failure
    return (← start.configuration.knownRoot, ← start.configuration.knownOptions)
  match known with
  | .error failure => ⟨system, start.notices, .error failure⟩
  | .ok (root, options) =>
    let run := runCheckAt system root options configuration.entryGlob configuration.fix
    { run with notices := start.notices ++ run.notices }

end DirectImports
