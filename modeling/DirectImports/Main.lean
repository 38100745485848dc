import DirectImports.CommandLine.Run

/-! The program. It takes a picture of the project and of the ignore files above it, runs the
command on the picture, and writes back the files that have changed. -/

namespace DirectImports

def locationOf (path : Text) : Location :=
  (segments path).filter (· ≠ [])

/-- Files other than source files that a run may have to read. -/
def settingsFiles : List Text :=
  [".ignore", ".gitignore", ".git", "commondir", "exclude"].map String.toList ++
    [defaultOptionsFile]

def readContent (path : Text) : IO Content := do
  try
    let bytes ← IO.FS.readBinFile (String.ofList path)
    return .ofBytes bytes.toList
  catch _ => return .torn []

/-- A path as the operating system resolves it; one that does not exist stays as it is. -/
def resolve (path : Text) : IO Text := do
  try return (← IO.FS.realPath (String.ofList path)).toString.toList
  catch _ => return path

def isRead (path : Text) : Bool :=
  hasSourceExtension path ||
    settingsFiles.any fun name => (components path).getLast? = some (.child name)

partial def readTree (directory : Text) : IO (List (Location × Entry)) := do
  let path ← IO.FS.realPath (String.ofList directory)
  let mut entries := []
  for found in ← path.readDir do
    let name := found.fileName.toList
    let child := joinPath directory name
    match (← found.path.symlinkMetadata).type with
    | .dir => entries := entries ++ (locationOf child, .directory) :: (← readTree child)
    | .file =>
      let content ← if isRead child && !isInPackages child then readContent child
        else pure (.torn [])
      entries := entries ++ [(locationOf child, .file content)]
    | .symlink =>
      if !(← found.path.isDir) then
        entries := entries ++ [(locationOf child, .link (locationOf (← resolve child)))]
    | .other => pure ()
  return entries

/-- What a directory above a project holds of ignore files and repositories. -/
def readLevel (location : Location) : IO (List (Location × Entry)) := do
  let path ← IO.FS.realPath (String.ofList (FileSystem.absolutePath location))
  let mut entries := if location = [] then [] else [(location, .directory)]
  for name in [".ignore", ".gitignore", ".git"] do
    if (← (path / name).pathExists) && !(← (path / name).isDir) then
      let file := location ++ [name.toList]
      entries := entries ++ [(file, .file (← readContent (FileSystem.absolutePath file)))]
  for name in [".git", ".jj"] do
    if ← (path / name).isDir then
      entries := entries ++ [(location ++ [name.toList], .directory)]
  if ← (path / ".git" / "info" / "exclude").pathExists then
    let info := location ++ [".git", "info"].map String.toList
    let file := info ++ ["exclude".toList]
    entries := entries ++
      [(info, .directory), (file, .file (← readContent (FileSystem.absolutePath file)))]
  return entries

/-- The picture of a project at a root, and of what lies above it. -/
def readProject (current : Option Location) (root : Text) : IO FileSystem := do
  let location := locationOf root
  let mut entries := []
  for above in FileSystem.directoriesAbove location do
    entries := entries ++ (← readLevel above)
  let path ← IO.FS.realPath (String.ofList root)
  if ← path.isDir then
    entries := entries ++ (location, .directory) :: (← readTree root)
  else
    entries := entries ++ [(location, .file (← readContent root))]
  return ⟨entries, current⟩

/-- Adds the files that links of a project lead to, wherever these are. -/
def addLinkedFiles (system : FileSystem) : IO FileSystem := do
  let mut system := system
  for (location, entry) in system.entries do
    if let .link target := entry then
      let file := FileSystem.absolutePath target
      if isRead (FileSystem.absolutePath location) && target != location then
        system := (system.write file (← readContent file)).toOption.getD system
  return system

def addFile (system : FileSystem) (file : Text) : IO FileSystem := do
  match ← readContent (← resolve file) with
  | .whole text => return (system.write file (.whole text)).toOption.getD system
  | .torn _ => return system

def addOptionsFile (system : FileSystem) (root : Text) (optionsFile : Option Text) :
    IO FileSystem := do
  match optionsFile with
  | none => return system
  | some file =>
    addFile system (if isAbsolute file then file else cleanPath (joinPath root file))

/-- Adds the ignore rules of the repositories that files named `.git` lead to. -/
def addLinkedRepositories (system : FileSystem) : IO FileSystem := do
  let mut system := system
  for (location, _) in system.entries do
    if location.getLast? = some ".git".toList then
      let directory := FileSystem.absolutePath location.dropLast
      if let .ok (some repository) := system.linkedRepository directory then
        system ← addFile system (joinPath repository "commondir".toList)
        if let .ok (some shared) := system.repositoryOf directory then
          system ← addFile system (joinPath shared "info/exclude".toList)
  return system

/-- The repository that holds the current directory, if there is one. -/
def findRepository (current : Option Location) : IO (Option Text) := do
  match current with
  | none => return none
  | some here =>
    for location in here :: FileSystem.directoriesAbove here do
      let directory := FileSystem.absolutePath location
      let path ← IO.FS.realPath (String.ofList directory)
      if ← (path / ".git").pathExists then return some directory
    return none

/-- The picture that a check needs, and its configuration with the root resolved. -/
def prepareCheck (current : Option Location) (configuration : Configuration) :
    IO (FileSystem × Configuration) := do
  let given ← configuration.root.mapM resolve
  let found ← match given with
    | some root => pure (some root)
    | none => findRepository current
  match found with
  | none => return (⟨[], current⟩, configuration)
  | some root =>
    let system ← try readProject current root catch _ => pure ⟨[], current⟩
    let system ← addLinkedFiles system
    let system ← addLinkedRepositories system
    let system ← addOptionsFile system root configuration.optionsFile
    return (system, { configuration with root := given })

def prepareRequest (current : Option Location) (request : Request) :
    IO (FileSystem × Request) := do
  match request with
  | .run (.check configuration) =>
    let (system, configuration) ← prepareCheck current configuration
    return (system, .run (.check configuration))
  | _ => return (⟨[], current⟩, request)

end DirectImports

open DirectImports in
def main (arguments : List String) : IO UInt32 := do
  let start ← IO.monoMsNow
  let current ← try pure (some (locationOf (← IO.currentDir).toString.toList))
    catch _ => pure none
  let (system, request) ← prepareRequest current (.read (arguments.map String.toList))
  let run := runRequest system request
  for (path, text) in FileSystem.changedFiles system run.system do
    IO.FS.writeFile (String.ofList path) (String.ofList text)
  let elapsed := (← IO.monoMsNow) - start
  let output := run.output false (decimal elapsed) 1
  IO.print (String.ofList output.standard)
  IO.eprint (String.ofList output.error)
  return output.code.toUInt32
