import DirectImports.Text.Blank

/-! Paths as text and as lists of components. Empty segments count for nothing, nor does a dot
unless a relative path begins with it. -/

namespace DirectImports

inductive Component where
  | root
  | current
  | parent
  | child (name : Text)
deriving DecidableEq, Repr

def segments : Text → List Text
  | [] => [[]]
  | c :: path => if c = '/' then [] :: segments path else attach c (segments path)

def isAbsolute (path : Text) : Bool :=
  path.head? == some '/'

def Component.ofSegment? (segment : Text) : Option Component :=
  if segment = [] ∨ segment = ['.'] then none
  else if segment = ['.', '.'] then some .parent
  else some (.child segment)

def components (path : Text) : List Component :=
  let parts := (segments path).filterMap Component.ofSegment?
  if isAbsolute path then .root :: parts
  else if (segments path).head? = some ['.'] then .current :: parts
  else parts

def fileName? (path : Text) : Option Text :=
  match (components path).getLast? with
  | some (.child name) => some name
  | _ => none

/-- The part of a file name after its last dot. A dot at the very start does not count. -/
def extensionOf? (name : Text) : Option Text :=
  match name.reverse.span (· ≠ '.') with
  | (extension, _ :: _ :: _) => some extension.reverse
  | _ => none

def extension? (path : Text) : Option Text :=
  (fileName? path).bind extensionOf?

def joinPath (base path : Text) : Text :=
  if isAbsolute path then path
  else if base.getLast?.any (· ≠ '/') then base ++ '/' :: path
  else base ++ path

def Component.text : Component → Text
  | root => []
  | current => ['.']
  | parent => ['.', '.']
  | child name => name

/-- Components written with a slash between two of them. -/
def renderComponents : List Component → Text
  | [.root] => ['/']
  | parts => joinWith ['/'] (parts.map Component.text)

/-- What is left of a path below `base`; nothing if it does not begin with `base`. -/
def below? (base path : List Component) : Option (List Component) :=
  if base.isPrefixOf path then some (path.drop base.length) else none

/-- One more component of a path in which dots are resolved by name alone. -/
def pushClean (done : List Component) : Component → List Component
  | .current => done
  | .parent =>
    match done.getLast? with
    | some .root => done
    | some (.child _) => done.dropLast
    | _ => done ++ [.parent]
  | part => done ++ [part]

/-- Resolves the dots of a path without looking at any file. -/
def cleanPath (path : Text) : Text :=
  match (components path).foldl pushClean [] with
  | [] => ['.']
  | parts => renderComponents parts

/-- The number of components that two paths have in common at their start. -/
def commonLength : List Component → List Component → Nat
  | a :: as, b :: bs => if a = b then commonLength as bs + 1 else 0
  | _, _ => 0

def Component.isStep : Component → Bool
  | parent => true
  | child _ => true
  | _ => false

/-- The way from the directory `base` to `target`: up to where the two part, then down. Paths
without a common start have no such way. -/
def relativeParts? (target base : List Component) : Option (List Component) :=
  match commonLength target base with
  | 0 => none
  | n => some ((base.drop n).map (fun _ => .parent) ++ (target.drop n).filter Component.isStep)

def relativePath? (target base : Text) : Option Text :=
  (relativeParts? (components target) (components base)).map fun
    | [] => ['.']
    | parts => renderComponents parts

end DirectImports
