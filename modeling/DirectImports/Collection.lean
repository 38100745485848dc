import DirectImports.Ignore.Walk
import DirectImports.Source.Language

/-! The source files of a project: which of the visits of a walk count, and their order. -/

namespace DirectImports

/-- The order of kinds of components; names come last. -/
def Component.rank : Component → Nat
  | root => 0
  | current => 1
  | parent => 2
  | child _ => 3

def Component.precedes : Component → Component → Bool
  | child a, child b => textPrecedes a b
  | a, b => a.rank ≤ b.rank

def componentsPrecede : List Component → List Component → Bool
  | [], _ => true
  | _ :: _, [] => false
  | a :: as, b :: bs => if a = b then componentsPrecede as bs else a.precedes b

def pathPrecedes (a b : Text) : Bool :=
  componentsPrecede (components a) (components b)

def relativeTo? (root path : Text) : Option Text :=
  (below? (components root) (components path)).map renderComponents

def hasSourceExtension (path : Text) : Bool :=
  (extension? path).any sourceExtensions.contains

/-- Whether a path leads through the directory of installed packages. -/
def isInPackages (path : Text) : Bool :=
  (components path).contains (.child "node_modules".toList)

/-- Whether the part of a path below the root contains a text. -/
def isWithin (root path entryGlob : Text) : Bool :=
  (relativeTo? root path).any (contains entryGlob)

/-- The files to lint are source files outside installed packages, and inside the part of the
project that is asked for. -/
def isCollected (root : Text) (entryGlob : Option Text) (visit : Visit) : Bool :=
  visit.isFile && hasSourceExtension visit.path && !isInPackages visit.path &&
    entryGlob.all (isWithin root visit.path)

/-- The collected files of a walk; its first failure if it has one. -/
def collectFrom (root : Text) (entryGlob : Option Text) (walk : List (Except Failure Visit)) :
    Except Failure (List Text) := do
  let visits ← walk.mapM id
  return ((visits.filter (isCollected root entryGlob)).map Visit.path).mergeSort pathPrecedes

def collectFiles (system : FileSystem) (root : Text) (entryGlob : Option Text) :
    Except Failure (List Text) :=
  collectFrom root entryGlob (system.walk root)

end DirectImports
