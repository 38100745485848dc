import DirectImports.Failure
import DirectImports.Fix

/-! Notices: what is worth a warning but stops nothing. -/

namespace DirectImports

inductive Notice where
  | missingPlaceholder (barrel template : Text)
  | unknownTransform (token barrel : Text)
  | skippedFix (span : Span)
  | noSourceFiles (root : Text)
  | skippedFile (path : Text) (failure : Failure)
deriving DecidableEq, Repr

def Notice.message : Notice → Text
  | missingPlaceholder barrel template =>
    "transformPattern for '".toList ++ barrel ++ "' has no ".toList ++ placeholder ++
      " placeholder; every import will map to '".toList ++ template ++ ['\'']
  | unknownTransform token barrel =>
    "Unknown transformImportName '".toList ++ token ++ "' for '".toList ++ barrel ++
      "', names are left unchanged".toList
  | skippedFix span =>
    "Skipping overlapping fix at ".toList ++ decimal span.start ++ ['.', '.'] ++
      decimal span.stop
  | noSourceFiles root => "No source files found under ".toList ++ root
  | skippedFile path failure => "Skipping ".toList ++ path ++ ": ".toList ++ failure.message

/-- What is odd about a pattern: a template without placeholder, then an unknown transform. -/
def BarrelPattern.notices (pattern : BarrelPattern) : List Notice :=
  (if contains placeholder pattern.transformPattern then []
    else [.missingPlaceholder pattern.barrel pattern.transformPattern]) ++
  (match pattern.transformImportName with
    | some (.unrecognized token) => [.unknownTransform token pattern.barrel]
    | _ => [])

def RuleOptions.notices (options : RuleOptions) : List Notice :=
  options.patterns.flatMap BarrelPattern.notices

/-- Options give notices only when they were read as a whole. -/
def optionsNotices (text : Text) : List Notice :=
  match readOptions text with
  | .ok options => options.notices
  | .error _ => []

def fixNotices (fixes : List Fix) : List Notice :=
  (select fixes).skipped.map fun fix => .skippedFix fix.span

end DirectImports
