import DirectImports.Path

/-! A file system: directories, files and links by the names that lead to them, and a current
directory, which is missing once it has been removed. A file can have several names. What is read
or written by the name of a link is what the link leads to. -/

namespace DirectImports

/-- The names that lead to a file or a directory from the root. -/
abbrev Location := List Text

inductive SystemError where
  | notFound
  | notDirectory
  | isDirectory
  | invalidText
deriving DecidableEq, Repr

def SystemError.message : SystemError → Text
  | notFound => "No such file or directory (os error 2)".toList
  | notDirectory => "Not a directory (os error 20)".toList
  | isDirectory => "Is a directory (os error 21)".toList
  | invalidText => "stream did not contain valid UTF-8".toList

/-- What a file holds: a text, or bytes that are not UTF-8. Of those, the lines before the first
one that is no text can still be read. -/
inductive Content where
  | whole (text : Text)
  | torn (firstLines : Text)
deriving DecidableEq, Repr

namespace Content

def decode? (bytes : List UInt8) : Option Text :=
  (String.fromUTF8? ⟨bytes.toArray⟩).map String.toList

def byteLines : List UInt8 → List (List UInt8)
  | [] => []
  | b :: bytes =>
    if b = 10 then [b] :: byteLines bytes
    else match byteLines bytes with
      | [] => [[b]]
      | line :: rest => (b :: line) :: rest

def ofBytes (bytes : List UInt8) : Content :=
  match decode? bytes with
  | some text => whole text
  | none => torn (((byteLines bytes).map decode?).takeWhile Option.isSome |>.filterMap id).flatten

def lines : Content → List Text
  | whole text => DirectImports.lines text
  | torn firstLines => DirectImports.lines firstLines

end Content

/-- What there is at a location. A link holds the location where following it ends; it leads nowhere
if there is nothing, or only another link. -/
inductive Entry where
  | directory
  | file (content : Content)
  | link (target : Location)
deriving DecidableEq, Repr

/-- What reading an entry gives. -/
def Entry.text : Entry → Except SystemError Text
  | directory => .error .isDirectory
  | file (.torn _) => .error .invalidText
  | file (.whole text) => .ok text
  | link _ => .error .notFound

structure FileSystem where
  entries : List (Location × Entry)
  currentDirectory : Option Location

namespace FileSystem

def entry? (system : FileSystem) (location : Location) : Option Entry :=
  if location = [] then some .directory
  else (system.entries.find? fun entry => entry.1 = location).map Prod.snd

/-- Where the link at a location leads. What is no link leads to itself. -/
def linkTarget (system : FileSystem) (location : Location) : Location :=
  match system.entry? location with
  | some (.link target) => target
  | _ => location

/-- The location of the directory or file that a location names. -/
def follow? (system : FileSystem) (location : Location) : Option Location :=
  match system.entry? (system.linkTarget location) with
  | none | some (.link _) => none
  | _ => some (system.linkTarget location)

/-- Whether an entry is a file or a link to one. -/
def isFileEntry (system : FileSystem) : Entry → Bool
  | .directory => false
  | .file _ => true
  | .link target =>
    match system.entry? target with
    | some (.file _) => true
    | _ => false

/-- One step of a path from a location, which must be a directory. -/
def step (system : FileSystem) (location : Location) (segment : Text) :
    Except SystemError Location :=
  match system.entry? location with
  | none | some (.link _) => throw .notFound
  | some (.file _) => throw .notDirectory
  | some .directory =>
    if segment = [] ∨ segment = ['.'] then return location
    else if segment = ['.', '.'] then return location.dropLast
    else match system.follow? (location ++ [segment]) with
      | some next => return next
      | none => throw .notFound

def origin (system : FileSystem) (path : Text) : Except SystemError Location :=
  if isAbsolute path then return []
  else match system.currentDirectory with
    | some location => if path = [] then throw .notFound else return location
    | none => throw .notFound

/-- The location of the directory or file that a path leads to. -/
def locate (system : FileSystem) (path : Text) : Except SystemError Location := do
  (segments path).foldlM system.step (← system.origin path)

/-- The location of what a path names, a link at its end not being followed. -/
def locateEntry (system : FileSystem) (path : Text) : Except SystemError Location := do
  let above ← (segments path).dropLast.foldlM system.step (← system.origin path)
  let name := (segments path).getLastD []
  match system.entry? (above ++ [name]) with
  | some (.link _) => return above ++ [name]
  | _ => system.step above name

def exists? (system : FileSystem) (path : Text) : Bool :=
  (system.locate path).toBool

def lookup (system : FileSystem) (path : Text) : Except SystemError Entry := do
  match system.entry? (← system.locate path) with
  | some entry => return entry
  | none => throw .notFound

def isFile (system : FileSystem) (path : Text) : Bool :=
  match system.lookup path with
  | .ok (.file _) => true
  | _ => false

def readText (system : FileSystem) (path : Text) : Except SystemError Text := do
  (← system.lookup path).text

def firstLine? (system : FileSystem) (path : Text) : Except SystemError (Option Text) := do
  match ← system.lookup path with
  | .directory => throw .isDirectory
  | .link _ => throw .notFound
  | .file (.torn []) => throw .invalidText
  | .file content => return content.lines.head?

def absolutePath (location : Location) : Text :=
  if location = [] then ['/'] else location.flatMap fun name => '/' :: name

/-- The absolute path of what a path leads to, free of dots and links. -/
def canonicalPath? (system : FileSystem) (path : Text) : Option Text :=
  (system.locate path).toOption.map absolutePath

def currentPath (system : FileSystem) : Except SystemError Text :=
  match system.currentDirectory with
  | some location => return absolutePath location
  | none => throw .notFound

/-- Puts an entry at a location in place of what was there. -/
def put (system : FileSystem) (location : Location) (entry : Entry) : FileSystem :=
  { system with
    entries := system.entries.filter (fun old => old.1 ≠ location) ++ [(location, entry)] }

def overwrite (system : FileSystem) (path text : Text) : FileSystem :=
  match system.locate path with
  | .ok location => system.put location (.file (.whole text))
  | .error _ => system

/-- Follows segments from a location; directories that are missing are created, but not in place of
a link that leads nowhere. -/
def createSegments (system : FileSystem) (location : Location) :
    List Text → Except SystemError (FileSystem × Location)
  | [] => return (system, location)
  | segment :: rest =>
    match system.step location segment with
    | .ok next =>
      if system.entry? next = some .directory then system.createSegments next rest
      else throw .notDirectory
    | .error .notFound =>
      let created := location ++ [segment]
      if (system.entry? created).isSome then throw .notFound
      else (system.put created .directory).createSegments created rest
    | .error error => throw error

/-- Creates a directory with those above it. The empty path asks for nothing. -/
def createDirectories (system : FileSystem) (path : Text) : Except SystemError FileSystem := do
  if path = [] then return system
  return (← system.createSegments (← system.origin path) (segments path)).1

/-- Writes a file, its directories created as needed. A link is written through. -/
def write (system : FileSystem) (path : Text) (content : Content) :
    Except SystemError FileSystem := do
  let name := (segments path).getLastD []
  let (system, location) ←
    system.createSegments (← system.origin path) (segments path).dropLast
  if name = [] ∨ name = ['.'] ∨ name = ['.', '.'] then throw .isDirectory
  let named := location ++ [name]
  if (system.entry? named).isSome ∧ (system.follow? named).isNone then throw .notFound
  let place := system.linkTarget named
  if system.entry? place = some .directory then throw .isDirectory
  return system.put place (.file content)

/-- The files whose text differs from what it was before, with their new text. -/
def changedFiles (before after : FileSystem) : List (Text × Text) :=
  after.entries.filterMap fun (location, entry) =>
    match entry with
    | .file (.whole text) =>
      if before.entry? location = some entry then none else some (absolutePath location, text)
    | _ => none

def remove (system : FileSystem) (path : Text) : Except SystemError FileSystem := do
  let location ← system.locateEntry path
  return {
    entries := system.entries.filter fun entry => !location.isPrefixOf entry.1
    currentDirectory := system.currentDirectory.filter fun here => !location.isPrefixOf here }

def changeDirectory (system : FileSystem) (path : Text) : Except SystemError FileSystem := do
  let location ← system.locate path
  if system.entry? location = some .directory then
    return { system with currentDirectory := some location }
  else throw .notDirectory

end FileSystem

end DirectImports
