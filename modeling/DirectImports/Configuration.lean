import DirectImports.Notice

/-! The configuration of a run: where the project is, which files to lint, and by which options.
Preparing it finds the root and loads the options. -/

namespace DirectImports

structure Configuration where
  root : Option Text
  optionsFile : Option Text
  entryGlob : Option Text
  fix : Bool
  options : Option RuleOptions

def Configuration.empty : Configuration :=
  ⟨none, none, none, false, none⟩

namespace FileSystem

/-- The nearest directory with a repository, from the current one upward. -/
def repositoryRoot (system : FileSystem) : Except Failure Text :=
  match system.currentDirectory with
  | none => throw (.system .notFound)
  | some here =>
    let above := (List.range here.length).reverse.map fun n => here.take n
    match (here :: above).find? fun location =>
        (system.follow? (location ++ [".git".toList])).isSome with
    | some location => return absolutePath location
    | none => throw .noRepository

/-- The file with the options. A relative path is taken from the root, its dots resolved by name;
without a path the default file at the root is meant. -/
def optionsFile (system : FileSystem) (root : Text) (explicit : Option Text) :
    Except Failure Text :=
  match explicit with
  | some path =>
    let path := if isAbsolute path then path else cleanPath (joinPath root path)
    if system.isFile path then return path else throw (.optionsFileNotFound path)
  | none =>
    let path := joinPath root defaultOptionsFile
    if system.isFile path then return path else throw (.noOptionsFile root)

def loadOptions (system : FileSystem) (path : Text) : Except Failure RuleOptions := do
  let text ← (system.readText path).mapError (Failure.unreadable path)
  (readOptions text).mapError (Failure.badOptionsFile path)

end FileSystem

structure Preparation where
  configuration : Configuration
  notices : List Notice
  failure : Option Failure

namespace Configuration

/-- The root of the project; one that exists is resolved. -/
def findRoot (configuration : Configuration) (system : FileSystem) : Except Failure Text :=
  match configuration.root with
  | some root => return (system.canonicalPath? root).getD root
  | none => system.repositoryRoot

/-- Options that are given count before those of a file. -/
def findOptions (configuration : Configuration) (system : FileSystem) (root : Text) :
    Except Failure RuleOptions :=
  match configuration.options with
  | some options => return options
  | none => do system.loadOptions (← system.optionsFile root configuration.optionsFile)

/-- Finds the root, then the options. A failure leaves no root. -/
def prepare (configuration : Configuration) (system : FileSystem) : Preparation :=
  let found : Except Failure (Text × RuleOptions) := do
    let root ← configuration.findRoot system
    return (root, ← configuration.findOptions system root)
  match found with
  | .ok (root, options) =>
    { configuration := { configuration with root := some root, options := some options }
      notices := if configuration.options.isSome then [] else options.notices
      failure := none }
  | .error failure =>
    { configuration := { configuration with root := none }, notices := [], failure := failure }

def knownRoot (configuration : Configuration) : Except Failure Text :=
  match configuration.root with
  | some root => return root
  | none => throw .notPrepared

def knownOptions (configuration : Configuration) : Except Failure RuleOptions :=
  match configuration.options with
  | some options => return options
  | none => throw .notPrepared

end Configuration

end DirectImports
