import DirectImports.Json.Record
import DirectImports.Pattern

/-! Rule options read from JSON text. Unknown members, members given twice and members of another
type are refused. -/

namespace DirectImports

inductive OptionsProblem where
  | malformed (problem : JsonProblem)
  | noPatterns
deriving DecidableEq, Repr

/-- What is known of named exports, of a pattern and of the options while they are read. -/
structure NamedExportsDraft where
  suffixes : Option (List Text)
  customPattern : Option (Option Text)

structure BarrelPatternDraft where
  barrel : Option Text
  transformPattern : Option Text
  transformImportName : Option (Option NameTransform)
  namedExports : Option (Option NamedExports)

structure RuleOptionsDraft where
  patterns : Option (List BarrelPattern)

open JsonReader in
def namedExportsRecord : JsonRecord NamedExportsDraft NamedExports where
  type := ⟨"NamedExportConfig", "2 elements"⟩
  fields := [
    ⟨"suffixes", true, fun draft => draft.suffixes.isSome,
      fun draft => return { draft with suffixes := some (← readList readText) }⟩,
    ⟨"customPattern", false, fun draft => draft.customPattern.isSome,
      fun draft => return { draft with customPattern := some (← readOptional readText) }⟩]
  empty := ⟨none, none⟩
  finish draft := draft.suffixes.map fun suffixes => ⟨suffixes, draft.customPattern.join, none⟩

def readTransform : JsonReader NameTransform := do
  return NameTransform.ofToken (← JsonReader.readText)

open JsonReader in
def barrelPatternRecord : JsonRecord BarrelPatternDraft BarrelPattern where
  type := ⟨"BarrelPattern", "4 elements"⟩
  fields := [
    ⟨"barrel", true, fun draft => draft.barrel.isSome,
      fun draft => return { draft with barrel := some (← readText) }⟩,
    ⟨"transformPattern", true, fun draft => draft.transformPattern.isSome,
      fun draft => return { draft with transformPattern := some (← readText) }⟩,
    ⟨"transformImportName", false, fun draft => draft.transformImportName.isSome,
      fun draft => return { draft with
        transformImportName := some (← readOptional readTransform) }⟩,
    ⟨"namedExports", false, fun draft => draft.namedExports.isSome,
      fun draft => return { draft with
        namedExports := some (← readOptional namedExportsRecord.read) }⟩]
  empty := ⟨none, none, none, none⟩
  finish draft := do
    return ⟨← draft.barrel, ← draft.transformPattern, draft.transformImportName.join,
      draft.namedExports.join⟩

open JsonReader in
def ruleOptionsRecord : JsonRecord RuleOptionsDraft RuleOptions where
  type := ⟨"RuleOptions", "1 element"⟩
  fields := [
    ⟨"patterns", true, fun draft => draft.patterns.isSome,
      fun _ => return ⟨some (← readList barrelPatternRecord.read)⟩⟩]
  empty := ⟨none⟩
  finish draft := draft.patterns.map RuleOptions.mk

/-- Options need at least one pattern. -/
def readOptions (text : Text) : Except OptionsProblem RuleOptions := do
  let options ← (readJson ruleOptionsRecord.read text).mapError OptionsProblem.malformed
  if options.patterns.isEmpty then throw .noPatterns else return options

end DirectImports
