import DirectImports.Text.Basic

/-! Casing of an imported name on its way to a module name. Only ASCII letters have a case. -/

namespace DirectImports

def lowerCase (name : Text) : Text :=
  name.map Char.toLower

/-- A word begins at a capital after a small letter or digit, and at the last capital of an
acronym that runs into a small letter. -/
def beginsWord (previous current : Char) (next : Option Char) : Bool :=
  ((previous.isLower || previous.isDigit) && current.isUpper) ||
    (previous.isUpper && current.isUpper && next.any Char.isLower)

/-- Hyphenates the rest of a name whose last character so far is `previous`. -/
def hyphenateAfter (previous : Char) : Text → Text
  | [] => []
  | c :: rest =>
    if beginsWord previous c rest.head? then '-' :: c :: hyphenateAfter c rest
    else c :: hyphenateAfter c rest

def hyphenate : Text → Text
  | [] => []
  | c :: rest => c :: hyphenateAfter c rest

def kebabCase (name : Text) : Text :=
  lowerCase (hyphenate name)

def camelCase : Text → Text
  | [] => []
  | c :: rest => c.toLower :: rest

/-- How an imported name becomes a module name. A custom function may have no answer. -/
inductive NameTransform where
  | lowercase
  | kebabCase
  | camelCase
  | custom (transform : Text → Option Text)
  | unrecognized (token : Text)

namespace NameTransform

def ofToken (token : Text) : NameTransform :=
  if token = "lowercase".toList then lowercase
  else if token = "kebab-case".toList then kebabCase
  else if token = "camelCase".toList then camelCase
  else unrecognized token

/-- Without a transform, or with one that is not recognized, a name stays as it is. -/
def apply : Option NameTransform → Text → Option Text
  | none, name => some name
  | some lowercase, name => some (lowerCase name)
  | some kebabCase, name => some (DirectImports.kebabCase name)
  | some camelCase, name => some (DirectImports.camelCase name)
  | some (custom transform), name => transform name
  | some (unrecognized _), name => some name

end NameTransform

end DirectImports
