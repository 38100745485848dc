import DirectImports.Ignore.Rules
import DirectImports.Options.Reader

/-! Reasons for giving up. The message of a failure is a chain of texts from what was attempted
to what went wrong. -/

namespace DirectImports

inductive Failure where
  /-- A custom function gave no answer, or a span does not fit its text. -/
  | aborted
  | system (error : SystemError)
  | unreadable (path : Text) (error : SystemError)
  | unparsable (path : Text) (errors : Nat)
  | badOptions (problem : OptionsProblem)
  | badOptionsFile (path : Text) (problem : OptionsProblem)
  | noRepository
  | optionsFileNotFound (path : Text)
  | noOptionsFile (root : Text)
  | notPrepared
  | badRoot (root : Text) (error : SystemError)
  | badIgnoreFiles (problems : List IgnoreProblem)
  | noSourceFiles (root : Text)
deriving DecidableEq, Repr

def defaultOptionsFile : Text :=
  ".debarrelrc.json".toList

def GlobProblem.message : GlobProblem → Text
  | unopenedGroup =>
    "unopened alternate group; missing '\x7b' (maybe escape '\x7d' with '[\x7d]'?)".toList
  | unclosedGroup =>
    "unclosed alternate group; missing '\x7d' (maybe escape '\x7b' with '[\x7b]'?)".toList
  | reversedRange low high => "invalid range; '".toList ++ low :: "' > '".toList ++ [high, '\'']
  | danglingEscape => "dangling '\\'".toList

def IgnoreProblem.message : IgnoreProblem → Text
  | badGlob path line glob problem =>
    path ++ ": line ".toList ++ decimal line ++ ": error parsing glob '".toList ++ glob ++
      "': ".toList ++ problem.message
  | notText path line =>
    path ++ ": line ".toList ++ decimal line ++ [':', ' '] ++ SystemError.invalidText.message
  | unreadable path error => path ++ [':', ' '] ++ error.message

def OptionsProblem.chain : OptionsProblem → List Text
  | malformed problem => ["Invalid debarrel options".toList, problem.message]
  | noPatterns => ["`patterns` must contain at least one barrel pattern".toList]

def Failure.chain : Failure → List Text
  | aborted => []
  | system error => [error.message]
  | unreadable path error => ["Failed to read ".toList ++ path, error.message]
  | unparsable path errors =>
    ["Failed to parse ".toList ++ path ++ ": ".toList ++ decimal errors ++ " errors".toList]
  | badOptions problem => problem.chain
  | badOptionsFile path problem =>
    ("Failed to load options from ".toList ++ path) :: problem.chain
  | noRepository => ["Could not find .git directory in any parent folder".toList]
  | optionsFileNotFound path => ["Options file not found: ".toList ++ path]
  | noOptionsFile root =>
    ["No ".toList ++ defaultOptionsFile ++ " found in ".toList ++ root ++
      " (pass --config to point at one)".toList]
  | notPrepared => ["Config not initialized - call initialize() first".toList]
  | badRoot root error =>
    [root ++ ": IO error for operation on ".toList ++ root ++ ": ".toList ++ error.message]
  | badIgnoreFiles problems => [joinWith ['\n'] (problems.map IgnoreProblem.message)]
  | noSourceFiles root => ["No source files found under ".toList ++ root]

def Failure.message (failure : Failure) : Text :=
  joinWith ": ".toList failure.chain

end DirectImports
