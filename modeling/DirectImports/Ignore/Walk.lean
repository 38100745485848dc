import DirectImports.Failure
import DirectImports.Ignore.Rules

/-! The walk through a directory that leaves out what ignore files name. A directory that is
ignored is not entered. -/

namespace DirectImports

/-- The ignore files of a directory, and whether it holds a repository. A directory above the walk
is known by its absolute path, another one by the path of the walk. -/
structure IgnoreLevel where
  path : Text
  isAbove : Bool
  hasRepository : Bool
  general : IgnoreFile
  repository : IgnoreFile
  exclude : IgnoreFile

def dropLeading (leading path : Text) : Text :=
  if leading.isPrefixOf path then path.drop leading.length else path

def withoutDot (path : Text) : Text :=
  dropLeading ['.', '/'] path

def isDot (path : Text) : Bool :=
  components path = [.current]

namespace FileSystem

/-- The rules of an ignore file; a file that cannot be read has none. -/
def ignoreFile (system : FileSystem) (path : Text) : IgnoreFile :=
  match system.lookup path with
  | .ok (.file content) => readIgnoreFile path content
  | _ => .empty

/-- The directory that a repository shares with others, as its file `commondir` tells. -/
def sharedRepository (system : FileSystem) (repository : Text) :
    Except IgnoreProblem (Option Text) := do
  let path := joinPath repository "commondir".toList
  if !system.exists? path then return none
  match ← (system.firstLine? path).mapError (IgnoreProblem.unreadable path) with
  | some line => return some (if line.head? = some '.' then joinPath repository line else line)
  | none => return none

/-- Where the file `.git` of a directory says that its repository is. -/
def linkedRepository (system : FileSystem) (directory : Text) :
    Except IgnoreProblem (Option Text) := do
  let path := joinPath directory ".git".toList
  match ← (system.firstLine? path).mapError (IgnoreProblem.unreadable path) with
  | some line =>
    let mark := "gitdir: ".toList
    return if mark.isPrefixOf line then some (line.drop mark.length) else none
  | none => return none

/-- The repository of a directory: `.git`, or else what a file of that name leads to. -/
def repositoryOf (system : FileSystem) (directory : Text) :
    Except IgnoreProblem (Option Text) := do
  let path := joinPath directory ".git".toList
  if !system.isFile path then return some path
  match ← system.linkedRepository directory with
  | some repository => system.sharedRepository repository
  | none => return none

def excludeFile (system : FileSystem) (directory : Text) : IgnoreFile :=
  match system.repositoryOf directory with
  | .ok (some repository) => system.ignoreFile (joinPath repository "info/exclude".toList)
  | .ok none => .empty
  | .error problem => ⟨[], [problem]⟩

def ignoreLevel (system : FileSystem) (path : Text) (isAbove : Bool) : IgnoreLevel where
  path := path
  isAbove := isAbove
  hasRepository := [".git", ".jj"].any fun name => system.exists? (joinPath path name.toList)
  general := system.ignoreFile (joinPath path ".ignore".toList)
  repository := system.ignoreFile (joinPath path ".gitignore".toList)
  exclude := system.excludeFile path

/-- The directories above a location, the nearest first. -/
def directoriesAbove (location : Location) : List Location :=
  (List.range location.length).reverse.map fun n => location.take n

end FileSystem

/-- A path that the walk comes by, and the same path from the root of the file system. -/
structure WalkedPath where
  path : Text
  absolute : Text
deriving DecidableEq, Repr

/-- A path below the root of a walk, where `location` is what the root stands for. -/
def WalkedPath.ofRoot (root : Text) (location : Location) (path : Text) : WalkedPath :=
  let path := withoutDot path
  let below :=
    if isDot root then path else dropLeading ['/'] (dropLeading (withoutDot root) path)
  ⟨path, joinPath (FileSystem.absolutePath location) below⟩

namespace IgnoreLevel

def view (level : IgnoreLevel) (walked : WalkedPath) : Text :=
  let path := withoutDot (if level.isAbove then walked.absolute else walked.path)
  let base := withoutDot level.path
  if !isDot base && path.contains '/' && base.isPrefixOf path then
    dropLeading ['/'] (path.drop base.length)
  else path

/-- The first verdict on a path among the ignore files of some levels. -/
def verdict? (file : IgnoreLevel → IgnoreFile) (levels : List IgnoreLevel)
    (walked : WalkedPath) (isDirectory : Bool) : Option Bool :=
  levels.findSome? fun level => ignores? (file level).rules (level.view walked) isDirectory

/-- The levels up to the nearest one with a repository. -/
def withinRepository : List IgnoreLevel → List IgnoreLevel
  | [] => []
  | level :: levels => if level.hasRepository then [level] else level :: withinRepository levels

/-- Whether the ignore files at the levels above a path ignore it. The general ones count before
those of the repository, and those outside the repository count for nothing. -/
def isIgnored (levels : List IgnoreLevel) (walked : WalkedPath) (isDirectory : Bool) : Bool :=
  let inside := if levels.any hasRepository then withinRepository levels else []
  let verdict := (verdict? general levels walked isDirectory).or <|
    (verdict? repository inside walked isDirectory).or <|
      verdict? exclude inside walked isDirectory
  verdict.getD false

def problems (level : IgnoreLevel) : List IgnoreProblem :=
  level.general.problems ++ level.repository.problems ++ level.exclude.problems

end IgnoreLevel

structure Visit where
  path : Text
  isFile : Bool
deriving DecidableEq, Repr

namespace FileSystem

def levelsAbove (system : FileSystem) (location : Location) : List IgnoreLevel :=
  (directoriesAbove location).map fun above => system.ignoreLevel (absolutePath above) true

/-- What there is below a location, each with the names that lead to it. -/
def entriesBelow (system : FileSystem) (location : Location) : List (Location × Entry) :=
  system.entries.filterMap fun (other, entry) =>
    if location.isPrefixOf other ∧ location.length < other.length then
      some (other.drop location.length, entry)
    else none

/-- Whether nothing on the way down from the directory `top` to what lies below it is ignored.
The levels are those above `top`, then its own and those of the directories on the way. -/
def isReached (system : FileSystem) (walked : Text → WalkedPath) (entry : Entry) :
    List IgnoreLevel → Text → List Text → Bool
  | _, _, [] => true
  | levels, top, name :: names =>
    let levels := system.ignoreLevel top false :: levels
    let path := joinPath top name
    let isDirectory := !names.isEmpty || entry == .directory
    !IgnoreLevel.isIgnored levels (walked path) isDirectory &&
      system.isReached walked entry levels path names

/-- The walk from a root. The root itself is never ignored, and a dash is no root but stands for
the standard input. A link is come by under its own name; the walk does not enter it. -/
def walk (system : FileSystem) (root : Text) : List (Except Failure Visit) :=
  if root = ['-'] then []
  else match system.locate root with
  | .error error => [.error (.badRoot root error)]
  | .ok location =>
    let start : Except Failure Visit := .ok ⟨root, system.isFile root⟩
    if system.isFile root then [start]
    else
      let above := system.levelsAbove location
      let problems := above.reverse.flatMap IgnoreLevel.problems
      let walked := WalkedPath.ofRoot root location
      let visits := ((system.entriesBelow location).filter fun (names, entry) =>
          system.isReached walked entry above root names).map fun (names, entry) =>
        .ok ⟨names.foldl joinPath root, system.isFileEntry entry⟩
      (if problems.isEmpty then [] else [.error (.badIgnoreFiles problems)]) ++ start :: visits

end FileSystem

end DirectImports
