import DirectImports.Naming
import DirectImports.Text.Search

/-! Barrel modules and the templates of the direct paths that replace them. -/

namespace DirectImports

/-- The part of a path template that gives way to a module name. -/
def placeholder : Text :=
  "\x7b\x7bimportName\x7d\x7d".toList

/-- Only the first placeholder is filled. -/
def fill (template name : Text) : Text :=
  replaceFirst placeholder name template

/-- The exports that stay named in a direct import, told by the ending of their names. -/
structure NamedExports where
  suffixes : List Text
  customPattern : Option Text
  transform : Option (Text → Text → Option Text)

structure BarrelPattern where
  barrel : Text
  transformPattern : Text
  transformImportName : Option NameTransform
  namedExports : Option NamedExports

structure RuleOptions where
  patterns : List BarrelPattern

def RuleOptions.match? (options : RuleOptions) (source : Text) : Option BarrelPattern :=
  options.patterns.find? fun pattern => pattern.barrel == source

def NamedExports.suffix? (exports : NamedExports) (name : Text) : Option Text :=
  exports.suffixes.find? fun suffix => suffix.isSuffixOf name

namespace BarrelPattern

/-- The module of a name that becomes a default import. -/
def defaultPath (pattern : BarrelPattern) (name : Text) : Option Text :=
  (NameTransform.apply pattern.transformImportName name).map (fill pattern.transformPattern)

/-- A name without the bytes that the suffix takes up at its end. -/
def baseName (name suffix : Text) : Option Text :=
  if byteLength suffix ≤ byteLength name then
    (cutAt (byteLength name - byteLength suffix) name).map Prod.fst
  else none

/-- The module of a name that stays named because of its suffix. -/
def namedPath (pattern : BarrelPattern) (exports : NamedExports) (name suffix : Text) :
    Option Text := do
  let base ← match exports.transform with
    | some transform => transform name suffix
    | none => do NameTransform.apply pattern.transformImportName (← baseName name suffix)
  return fill (exports.customPattern.getD pattern.transformPattern) base

/-- The named exports and the suffix that keep a name named. -/
def namedMatch? (pattern : BarrelPattern) (name : Text) : Option (NamedExports × Text) := do
  let exports ← pattern.namedExports
  let suffix ← exports.suffix? name
  return (exports, suffix)

end BarrelPattern

end DirectImports
