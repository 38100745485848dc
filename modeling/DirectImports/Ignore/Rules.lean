import DirectImports.FileSystem
import DirectImports.Ignore.Glob

/-! The rules of an ignore file, one on a line. The last rule that matches a path decides, and
one behind an exclamation mark keeps it. -/

namespace DirectImports

structure IgnoreRule where
  glob : List GlobPiece
  keeps : Bool
  directoriesOnly : Bool

/-- A line without the blanks at its end, unless a backslash protects the last one. -/
def ruleText (line : Text) : Text :=
  if "\\ ".toList.isSuffixOf line then line else trimEnd line

/-- The marks in front of a rule: whether it keeps paths, whether it begins at the directory of
its file, and the rest. -/
def ruleMarks (text : Text) : Bool × Bool × Text :=
  match text with
  | '\\' :: '!' :: rest => (false, false, '!' :: rest)
  | '\\' :: '#' :: rest => (false, false, '#' :: rest)
  | '!' :: '/' :: rest => (true, true, rest)
  | '!' :: rest => (true, false, rest)
  | '/' :: rest => (false, true, rest)
  | _ => (false, false, text)

/-- Whether a rule is for directories only, told by a slash at its end, and the rest. -/
def directoryMark (text : Text) : Bool × Text :=
  if text.getLast? = some '/' then
    let rest := text.dropLast
    (true, if rest.getLast? = some '\\' then rest.dropLast else rest)
  else (false, text)

/-- The glob of a rule for whole paths. A rule without a slash holds at any depth, and one for
all below a directory does not hold for the directory. -/
def ruleGlob (isAnchored : Bool) (text : Text) : Text :=
  let text :=
    if isAnchored || text.contains '/' || text == ['*', '*'] then text
    else "**/".toList ++ text
  if "/**".toList.isSuffixOf text then text ++ ['/', '*'] else text

def readRule (line : Text) : Except GlobProblem (Option IgnoreRule) := do
  let text := ruleText line
  if line.head? = some '#' ∨ text = [] then return none
  let (keeps, isAnchored, rest) := ruleMarks text
  let (directoriesOnly, rest) := directoryMark rest
  return some ⟨← readGlob (ruleGlob isAnchored rest), keeps, directoriesOnly⟩

/-- What is wrong with an ignore file: a line that is no glob or no text, or a file that should
lead to it and cannot be read. -/
inductive IgnoreProblem where
  | badGlob (path : Text) (line : Nat) (glob : Text) (problem : GlobProblem)
  | notText (path : Text) (line : Nat)
  | unreadable (path : Text) (error : SystemError)
deriving DecidableEq, Repr

structure IgnoreFile where
  rules : List IgnoreRule
  problems : List IgnoreProblem

def IgnoreFile.empty : IgnoreFile :=
  ⟨[], []⟩

def IgnoreFile.readLine (path : Text) (line : Text × Nat) (file : IgnoreFile) : IgnoreFile :=
  match readRule line.1 with
  | .ok none => file
  | .ok (some rule) => { file with rules := rule :: file.rules }
  | .error problem =>
    { file with problems := .badGlob path line.2 (ruleText line.1) problem :: file.problems }

/-- A line that is no text is worth a word only beside another problem. -/
def IgnoreFile.breakOff (path : Text) (line : Nat) (file : IgnoreFile) : IgnoreFile :=
  if file.problems.isEmpty then file
  else { file with problems := file.problems ++ [.notText path line] }

/-- Lines without the byte order marks in front of the first one. -/
def dropMarks : List Text → List Text
  | [] => []
  | line :: lines => line.dropWhile (· == '\ufeff') :: lines

/-- The rules of a file up to the first line that is no text. -/
def readIgnoreFile (path : Text) (content : Content) : IgnoreFile :=
  let lines := dropMarks content.lines
  let file := (lines.zipIdx 1).foldr (IgnoreFile.readLine path) .empty
  match content with
  | .whole _ => file
  | .torn _ => file.breakOff path (lines.length + 1)

/-- Whether rules ignore a path; nothing if none of them matches. -/
def ignores? (rules : List IgnoreRule) (path : Text) (isDirectory : Bool) : Option Bool :=
  (rules.reverse.find? fun rule =>
    globMatches rule.glob path && (!rule.directoriesOnly || isDirectory)).map fun rule =>
      !rule.keeps

end DirectImports
