import Mathlib.Data.List.Infix
import Mathlib.Data.List.TakeWhile
import DirectImports.Configuration
import DirectImports.Proofs.OptionsTree
import DirectImports.Proofs.Substitution

/-! Rule options as JSON texts. A document is read as the options that it was written from, and the
notices tell of their patterns in order. -/

namespace DirectImports

theorem transformTree_iff {transform : NameTransform} {tree : JsonTree} :
    TransformTree transform tree ↔
      ∃ token, tree = .string token ∧ transform = .ofToken token := by
  constructor
  · rintro (_ | _ | _ | @⟨token, h⟩)
    · exact ⟨_, rfl, rfl⟩
    · exact ⟨_, rfl, rfl⟩
    · exact ⟨_, rfl, rfl⟩
    · simp only [transformTokens, List.mem_cons, List.not_mem_nil, or_false, not_or] at h
      obtain ⟨hlower, hkebab, hcamel⟩ := h
      refine ⟨token, rfl, ?_⟩
      rw [NameTransform.ofToken, if_neg hlower, if_neg hkebab, if_neg hcamel]
  · rintro ⟨token, rfl, rfl⟩
    by_cases hlower : token = "lowercase".toList
    · subst hlower
      exact .lowercase
    by_cases hkebab : token = "kebab-case".toList
    · subst hkebab
      exact .kebabCase
    by_cases hcamel : token = "camelCase".toList
    · subst hcamel
      exact .camelCase
    rw [NameTransform.ofToken, if_neg hlower, if_neg hkebab, if_neg hcamel]
    refine .unrecognized ?_
    simp only [transformTokens, List.mem_cons, List.not_mem_nil, or_false, not_or]
    exact ⟨hlower, hkebab, hcamel⟩

theorem readTransform_decodes : Decodes readTransform TransformTree := by
  have hread := JsonReader.readText_decodes.map NameTransform.ofToken
  exact hread.congr fun _ _ => transformTree_iff.symm

namespace NamedExportsDraft

def Sets (draft next : NamedExportsDraft) : String → JsonTree → Prop
  | "suffixes", tree => ∃ suffixes, ListTree TextTree suffixes tree ∧
      next = { draft with suffixes := some suffixes }
  | "customPattern", tree => ∃ template, OptionalTree TextTree template tree ∧
      next = { draft with customPattern := some template }
  | _, _ => False

@[mk_iff]
structure Fits (draft : NamedExportsDraft) (exports : NamedExports) : Prop where
  suffixes : Agrees draft.suffixes exports.suffixes
  customPattern : Agrees draft.customPattern exports.customPattern
  transform : exports.transform = none

end NamedExportsDraft

theorem not_textTree_null (text : Text) : ¬TextTree text .null :=
  nofun

theorem namedExports_follows : namedExportsRecord.Follows
    (fun field draft next => draft.Sets next field.name) NamedExportsDraft.Fits
    NamedExports.writing where
  names _ := rfl
  distinct := by decide
  optional := by
    intro exports
    simp [namedExportsRecord, NamedExports.writing]
  unset := by simp [namedExportsRecord]
  marks := by
    simp only [namedExportsRecord, List.forall_mem_cons]
    refine ⟨?_, ?_, nofun⟩
    all_goals
      rintro draft _ tree ⟨value, -, rfl⟩
      simp
  fills := by
    simp only [namedExportsRecord, List.forall_mem_cons]
    refine ⟨?_, ?_, nofun⟩
    all_goals
      intro draft hfree exports tree
      rw [Option.isSome_eq_false_iff, Option.isNone_iff_eq_none] at hfree
      refine fills_iff fun value => ?_
      simp only [NamedExportsDraft.fits_iff, hfree, agrees_none, agrees_some]
      tauto
  finish := by
    intro draft exports
    have hfinish : namedExportsRecord.finish draft = some exports ↔
        draft.suffixes = some exports.suffixes ∧
          draft.customPattern.join = exports.customPattern ∧ exports.transform = none := by
      obtain ⟨suffixes, customPattern, transform⟩ := exports
      cases hs : draft.suffixes <;> simp [namedExportsRecord, hs, @eq_comm _ none transform]
    rw [hfinish, eq_some_iff_agrees, join_eq_iff_agrees, NamedExportsDraft.fits_iff]
    simp [namedExportsRecord, NamedExports.writing]
    tauto

theorem namedExports_decodes : Decodes namedExportsRecord.read NamedExportsTree := by
  have hread : ∀ field ∈ namedExportsRecord.fields, ∀ draft,
      Decodes (field.read draft) fun next tree => draft.Sets next field.name tree := by
    simp only [namedExportsRecord, List.forall_mem_cons]
    refine ⟨fun draft => ?_, fun draft => ?_, nofun⟩
    · exact (JsonReader.readList_decodes JsonReader.readText_decodes).map _
    · exact (JsonReader.readOptional_decodes JsonReader.readText_decodes not_textTree_null).map _
  refine (namedExports_follows.decodes hread).congr fun exports tree => ?_
  have hfits : NamedExportsDraft.Fits namedExportsRecord.empty exports ↔
      exports.transform = none := by
    simp [NamedExportsDraft.fits_iff, namedExportsRecord]
  rw [hfits]
  exact ⟨fun h => ⟨h.1, h.2⟩, fun h => ⟨h.1, h.2⟩⟩

namespace BarrelPatternDraft

def Sets (draft next : BarrelPatternDraft) : String → JsonTree → Prop
  | "barrel", tree => ∃ barrel, TextTree barrel tree ∧ next = { draft with barrel := some barrel }
  | "transformPattern", tree => ∃ template, TextTree template tree ∧
      next = { draft with transformPattern := some template }
  | "transformImportName", tree => ∃ transform, OptionalTree TransformTree transform tree ∧
      next = { draft with transformImportName := some transform }
  | "namedExports", tree => ∃ exports, OptionalTree NamedExportsTree exports tree ∧
      next = { draft with namedExports := some exports }
  | _, _ => False

@[mk_iff]
structure Fits (draft : BarrelPatternDraft) (pattern : BarrelPattern) : Prop where
  barrel : Agrees draft.barrel pattern.barrel
  transformPattern : Agrees draft.transformPattern pattern.transformPattern
  transformImportName : Agrees draft.transformImportName pattern.transformImportName
  namedExports : Agrees draft.namedExports pattern.namedExports

end BarrelPatternDraft

theorem barrelPattern_follows : barrelPatternRecord.Follows
    (fun field draft next => draft.Sets next field.name) BarrelPatternDraft.Fits
    BarrelPattern.writing where
  names _ := rfl
  distinct := by decide
  optional := by
    intro pattern
    simp [barrelPatternRecord, BarrelPattern.writing]
  unset := by simp [barrelPatternRecord]
  marks := by
    simp only [barrelPatternRecord, List.forall_mem_cons]
    refine ⟨?_, ?_, ?_, ?_, nofun⟩
    all_goals
      rintro draft _ tree ⟨value, -, rfl⟩
      simp
  fills := by
    simp only [barrelPatternRecord, List.forall_mem_cons]
    refine ⟨?_, ?_, ?_, ?_, nofun⟩
    all_goals
      intro draft hfree pattern tree
      rw [Option.isSome_eq_false_iff, Option.isNone_iff_eq_none] at hfree
      refine fills_iff fun value => ?_
      simp only [BarrelPatternDraft.fits_iff, hfree, agrees_none, agrees_some]
      tauto
  finish := by
    intro draft pattern
    have hfinish : barrelPatternRecord.finish draft = some pattern ↔
        draft.barrel = some pattern.barrel ∧
          draft.transformPattern = some pattern.transformPattern ∧
            draft.transformImportName.join = pattern.transformImportName ∧
              draft.namedExports.join = pattern.namedExports := by
      obtain ⟨barrel, template, transform, exports⟩ := pattern
      cases hb : draft.barrel <;> cases ht : draft.transformPattern <;>
        simp [barrelPatternRecord, hb, ht]
    rw [hfinish, eq_some_iff_agrees, eq_some_iff_agrees, join_eq_iff_agrees, join_eq_iff_agrees,
      BarrelPatternDraft.fits_iff]
    simp [barrelPatternRecord, BarrelPattern.writing]
    tauto

theorem transformTree_not_null (transform : NameTransform) : ¬TransformTree transform .null :=
  nofun

theorem namedExportsTree_not_null (exports : NamedExports) : ¬NamedExportsTree exports .null :=
  fun h => nomatch h.allows

theorem barrelPattern_decodes : Decodes barrelPatternRecord.read PatternTree := by
  have hread : ∀ field ∈ barrelPatternRecord.fields, ∀ draft,
      Decodes (field.read draft) fun next tree => draft.Sets next field.name tree := by
    simp only [barrelPatternRecord, List.forall_mem_cons]
    refine ⟨fun draft => ?_, fun draft => ?_, fun draft => ?_, fun draft => ?_, nofun⟩
    · exact JsonReader.readText_decodes.map _
    · exact JsonReader.readText_decodes.map _
    · exact (JsonReader.readOptional_decodes readTransform_decodes transformTree_not_null).map _
    · exact
        (JsonReader.readOptional_decodes namedExports_decodes namedExportsTree_not_null).map _
  refine (barrelPattern_follows.decodes hread).congr fun pattern tree => ?_
  have hfits : BarrelPatternDraft.Fits barrelPatternRecord.empty pattern := by
    simp [BarrelPatternDraft.fits_iff, barrelPatternRecord]
  exact and_iff_right hfits

def RuleOptionsDraft.Sets (next : RuleOptionsDraft) : String → JsonTree → Prop
  | "patterns", tree => ∃ patterns, ListTree PatternTree patterns tree ∧ next = ⟨some patterns⟩
  | _, _ => False

theorem ruleOptions_follows : ruleOptionsRecord.Follows
    (fun field _ next => next.Sets field.name)
    (fun draft options => Agrees draft.patterns options.patterns) RuleOptions.writing where
  names _ := rfl
  distinct := by decide
  optional := by
    intro options
    simp [ruleOptionsRecord, RuleOptions.writing]
  unset := by simp [ruleOptionsRecord]
  marks := by
    simp only [ruleOptionsRecord, List.forall_mem_cons]
    refine ⟨?_, nofun⟩
    rintro draft _ tree ⟨patterns, -, rfl⟩
    simp
  fills := by
    simp only [ruleOptionsRecord, List.forall_mem_cons]
    refine ⟨?_, nofun⟩
    intro draft hfree options tree
    rw [Option.isSome_eq_false_iff, Option.isNone_iff_eq_none] at hfree
    refine fills_iff fun patterns => ?_
    simp only [hfree, agrees_none, agrees_some, true_and]
  finish := by
    intro draft options
    have hfinish : ruleOptionsRecord.finish draft = some options ↔
        draft.patterns = some options.patterns := by
      obtain ⟨patterns⟩ := options
      cases hp : draft.patterns <;> simp [ruleOptionsRecord, hp]
    rw [hfinish, eq_some_iff_agrees]
    simp [ruleOptionsRecord, RuleOptions.writing, Option.isSome_iff_ne_none]

theorem ruleOptions_decodes :
    Decodes ruleOptionsRecord.read fun options tree => options.writing.Allows tree := by
  have hread : ∀ field ∈ ruleOptionsRecord.fields, ∀ draft,
      Decodes (field.read draft) fun next tree => next.Sets field.name tree := by
    simp only [ruleOptionsRecord, List.forall_mem_cons]
    refine ⟨fun draft => ?_, nofun⟩
    exact (JsonReader.readList_decodes barrelPattern_decodes).map _
  refine (ruleOptions_follows.decodes hread).congr fun options tree => ?_
  exact and_iff_right (agrees_none _)

theorem readJson_eq_ok {α : Type} {read : JsonReader α} {text : Text} {a : α} :
    readJson read text = .ok a ↔ ∃ rest, read text = .ok (a, rest) ∧ IsBlank rest := by
  cases hread : read text with
  | error problem =>
    have hjson : readJson read text = .error problem := by
      simp only [readJson, hread]
      rfl
    simp [hjson]
  | ok result =>
    obtain ⟨b, rest⟩ := result
    have hjson : readJson read text =
        if rest.dropWhile JsonReader.isSpace = [] then .ok b else .error .trailingCharacters := by
      simp only [readJson, hread]
      rfl
    have hdrop : rest.dropWhile JsonReader.isSpace = [] ↔ IsBlank rest :=
      List.dropWhile_eq_nil_iff
    by_cases hblank : IsBlank rest
    · rw [if_pos (hdrop.mpr hblank)] at hjson
      simp [hjson, hblank]
    · rw [if_neg (mt hdrop.mp hblank)] at hjson
      simp [hjson, hblank]

theorem readOptions_eq_ok {text : Text} {options : RuleOptions} :
    readOptions text = .ok options ↔
      readJson ruleOptionsRecord.read text = .ok options ∧ options.patterns ≠ [] := by
  cases hread : readJson ruleOptionsRecord.read text with
  | error problem =>
    have hoptions : readOptions text = .error (.malformed problem) := by
      simp only [readOptions, hread]
      rfl
    simp [hoptions]
  | ok found =>
    have hoptions : readOptions text =
        if found.patterns.isEmpty then .error .noPatterns else .ok found := by
      simp only [readOptions, hread]
      rfl
    rw [hoptions]
    by_cases hp : found.patterns = []
    · simp only [hp, List.isEmpty_nil, if_true]
      constructor
      · nofun
      · rintro ⟨h, hne⟩
        obtain rfl := Except.ok.inj h
        exact absurd hp hne
    · have hne : ¬found.patterns.isEmpty = true := mt List.isEmpty_iff.mp hp
      rw [if_neg hne]
      constructor
      · intro h
        obtain rfl := Except.ok.inj h
        exact ⟨rfl, hp⟩
      · rintro ⟨h, -⟩
        obtain rfl := Except.ok.inj h
        rfl

/-- A document is read as the options that may be written so, and is refused if there are none. What
stands behind it must be blank. -/
theorem readOptions_append_iff {tree : JsonTree} {text : Text} (ht : tree.IsDocument text)
    (junk : Text) (options : RuleOptions) :
    readOptions (text ++ junk) = .ok options ↔ OptionsTree options tree ∧ IsBlank junk := by
  obtain ⟨before, written, after, hbefore, hw, hafter, rfl⟩ := ht
  have hread (rest : Text) := ruleOptions_decodes hw hbefore (after ++ junk) options rest
  have hblank : IsBlank (after ++ junk) ↔ IsBlank junk := by
    simp only [IsBlank, List.forall_mem_append] at hafter ⊢
    exact and_iff_right hafter
  rw [readOptions_eq_ok, readJson_eq_ok]
  simp only [List.append_assoc, hread]
  constructor
  · rintro ⟨⟨_, ⟨hallows, rfl⟩, hjunk⟩, hpatterns⟩
    exact ⟨⟨hpatterns, hallows⟩, hblank.mp hjunk⟩
  · rintro ⟨⟨hpatterns, hallows⟩, hjunk⟩
    exact ⟨⟨_, ⟨hallows, rfl⟩, hblank.mpr hjunk⟩, hpatterns⟩

theorem readOptions_iff {tree : JsonTree} {text : Text} (ht : tree.IsDocument text)
    (options : RuleOptions) : readOptions text = .ok options ↔ OptionsTree options tree := by
  have h := readOptions_append_iff ht [] options
  rw [List.append_nil] at h
  exact h.trans (and_iff_left isBlank_nil)

/-- A project whose options stand in a file starts with the notices of its text. -/
theorem prepare_notices {configuration : Configuration} {system : FileSystem}
    {root path text : Text} (hoptions : configuration.options = none)
    (hroot : configuration.findRoot system = .ok root)
    (hpath : system.optionsFile root configuration.optionsFile = .ok path)
    (htext : system.readText path = .ok text) :
    (configuration.prepare system).notices = optionsNotices text := by
  have hload : system.loadOptions path =
      (readOptions text).mapError (Failure.badOptionsFile path) := by
    rw [FileSystem.loadOptions, htext]
    rfl
  have hfind : configuration.findOptions system root = system.loadOptions path := by
    simp only [Configuration.findOptions, hoptions, hpath]
    rfl
  have hprepare : (configuration.prepare system).notices =
      match configuration.findOptions system root with
      | .ok options => options.notices
      | .error _ => [] := by
    cases hfound : configuration.findOptions system root <;>
      simp [Configuration.prepare, hroot, hfound, hoptions, bind, Except.bind, pure, Except.pure]
  rw [hprepare, hfind, hload, optionsNotices]
  cases readOptions text <;> rfl

/-- All options without functions have writings, and are read from each of them. The notices go from
pattern to pattern: of a template without a placeholder, then of an unrecognized transform. -/
theorem readOptions_written {options : RuleOptions} (h : options.IsExpressible) :
    (∃ tree text, OptionsTree options tree ∧ tree.IsDocument text) ∧
      ∀ tree text, OptionsTree options tree → tree.IsDocument text →
        readOptions text = .ok options ∧
          optionsNotices text = options.patterns.flatMap fun pattern =>
            (if placeholder <:+: pattern.transformPattern then []
              else [.missingPlaceholder pattern.barrel pattern.transformPattern]) ++
            (match pattern.transformImportName with
              | some (.unrecognized token) => [.unknownTransform token pattern.barrel]
              | _ => []) := by
  refine ⟨exists_document h, fun tree text htree htext => ?_⟩
  have hread : readOptions text = .ok options := (readOptions_iff htext options).mpr htree
  refine ⟨hread, ?_⟩
  have hnotices : optionsNotices text = options.notices := by
    simp only [optionsNotices, hread]
  rw [hnotices, RuleOptions.notices]
  refine congrArg options.patterns.flatMap (funext fun pattern => ?_)
  exact congrArg₂ (· ++ ·) (by simp only [contains_iff]) rfl

def mayStandForItself (c : Char) : Bool :=
  c != '"' && c != '\\' && decide (0x20 ≤ c.toNat)

theorem StringText.self {text : Text} (h : text.all mayStandForItself = true) :
    StringText text text := by
  induction text with
  | nil => exact .nil
  | cons c text ih =>
    simp only [List.all_cons, mayStandForItself, Bool.and_eq_true, bne_iff_ne,
      decide_eq_true_eq] at h
    obtain ⟨⟨⟨hq, hb⟩, hc⟩, hlater⟩ := h
    exact .plain hq hb hc (ih hlater)

/-- Two patterns, the first one as a list of its fields and the second one as an object. -/
def writtenOptions : RuleOptions :=
  ⟨[⟨['a', '😀'], "a/\x7b\x7bimportName\x7d\x7d".toList, none, some ⟨[['P']], none, none⟩⟩,
    ⟨['b'], ['x'], some (.unrecognized "snake".toList), none⟩]⟩

def writtenTree : JsonTree :=
  .object [("patterns".toList, .list [
    .list [.string ['a', '😀'], .string "a/\x7b\x7bimportName\x7d\x7d".toList, .null,
      .object [("customPattern".toList, .null), ("suffixes".toList, .list [.string ['P']])]],
    .object [("transformImportName".toList, .string "snake".toList),
      ("transformPattern".toList, .string ['x']), ("barrel".toList, .string ['b'])]])]

def writtenDocument : Text :=
  "\x7b\"patterns\":[[\"\\u0061\\ud83d\\ude00\",".toList ++
    "\"a/\x7b\x7bimportName\x7d\x7d\", null,".toList ++
    "\x7b\"customPattern\":null,\"suffixes\" : [\"P\"]\x7d],\n".toList ++
    "\x7b\"transformImportName\":\"snake\",".toList ++
    "\"transformPattern\":\"x\",\"barrel\":\"b\"\x7d]\x7d\n".toList

theorem isWritten_self (text : Text) (h : text.all mayStandForItself = true) :
    JsonTree.IsWritten (.string text) ('"' :: (text ++ ['"'])) :=
  .string (.self h)

theorem memberText_self (key : Text) (h : key.all mayStandForItself = true) {value : JsonTree}
    {text : Text} (hw : value.IsWritten text) :
    MemberText JsonTree.IsWritten (key, value) ('"' :: (key ++ '"' :: ':' :: text)) :=
  .member (.self h) isBlank_nil isBlank_nil hw

theorem writtenDocument_text : writtenTree.IsDocument writtenDocument := by
  have hblank : IsBlank [] := isBlank_nil
  have hspace : IsBlank [' '] := List.forall_mem_singleton.mpr rfl
  have hline : IsBlank ['\n'] := List.forall_mem_singleton.mpr rfl
  have hletter : FourDigits (((0 * 16 + 0) * 16 + 6) * 16 + 1) ['0', '0', '6', '1'] :=
    .digits rfl rfl rfl rfl
  have hhigh : FourDigits (((13 * 16 + 8) * 16 + 3) * 16 + 13) ['d', '8', '3', 'd'] :=
    .digits rfl rfl rfl rfl
  have hlow : FourDigits (((13 * 16 + 14) * 16 + 0) * 16 + 0) ['d', 'e', '0', '0'] :=
    .digits rfl rfl rfl rfl
  have hhalves : AreHalves '😀' 0xd83d 0xde00 := ⟨by decide, by decide, by decide⟩
  have hbarrel : JsonTree.IsWritten (.string ['a', '😀']) _ :=
    .string (.escape (.code hletter) (.escape (.halves hhalves hhigh hlow) .nil))
  have htemplate := isWritten_self "a/\x7b\x7bimportName\x7d\x7d".toList (by decide +kernel)
  have hcustom := memberText_self "customPattern".toList (by decide +kernel) .null
  have hsuffixes : MemberText JsonTree.IsWritten ("suffixes".toList, .list [.string ['P']]) _ :=
    .member (.self (by decide +kernel)) hspace hspace <| .list <|
      .first hblank (isWritten_self _ (by decide)) <| .nil hblank
  have hexports := JsonTree.IsWritten.object <|
    .first hblank hcustom <| .next hblank hblank hsuffixes <| .nil hblank
  have hfirst := JsonTree.IsWritten.list <|
    .first hblank hbarrel <| .next hblank hblank htemplate <| .next hblank hspace .null <|
    .next hblank hblank hexports <| .nil hblank
  have hsnake := memberText_self "transformImportName".toList (by decide +kernel)
    (isWritten_self "snake".toList (by decide +kernel))
  have hx := memberText_self "transformPattern".toList (by decide +kernel)
    (isWritten_self ['x'] (by decide))
  have hb := memberText_self "barrel".toList (by decide +kernel) (isWritten_self ['b'] (by decide))
  have hsecond := JsonTree.IsWritten.object <|
    .first hblank hsnake <| .next hblank hblank hx <| .next hblank hblank hb <| .nil hblank
  have hpatterns := JsonTree.IsWritten.list <|
    .first hblank hfirst <| .next hblank hline hsecond <| .nil hblank
  have hmembers := memberText_self "patterns".toList (by decide +kernel) hpatterns
  have htree : writtenTree.IsWritten _ := .object (.first hblank hmembers (.nil hblank))
  exact ⟨[], _, ['\n'], hblank, htree, hline, by decide +kernel⟩

theorem writtenTree_options : OptionsTree writtenOptions writtenTree := by
  have hexports : NamedExportsTree ⟨[['P']], none, none⟩ (.object
      [("customPattern".toList, .null), ("suffixes".toList, .list [.string ['P']])]) := by
    refine ⟨rfl, .object (by decide +kernel) ?_ ?_⟩
    · simp only [List.forall_mem_cons]
      refine ⟨?_, ?_, nofun⟩
      · exact ⟨"customPattern", by decide, rfl, .none⟩
      · exact ⟨"suffixes", by decide, rfl, .list (.cons rfl .nil)⟩
    · show ∀ name ∈ ["suffixes", "customPattern"], _
      simp only [List.forall_mem_cons]
      exact ⟨absurd (by decide +kernel), absurd (by decide +kernel), nofun⟩
  have hfirst : PatternTree ⟨['a', '😀'], "a/\x7b\x7bimportName\x7d\x7d".toList, none,
      some ⟨[['P']], none, none⟩⟩ (.list [_, _, .null, _]) :=
    .list (.next rfl (.next rfl (.next .none (.next (.some hexports) (.done nofun)))))
  have hsnake : TransformTree (.unrecognized "snake".toList) (.string "snake".toList) :=
    .unrecognized (by decide +kernel)
  have hsecond : PatternTree ⟨['b'], ['x'], some (.unrecognized "snake".toList), none⟩ (.object
      [("transformImportName".toList, .string "snake".toList),
        ("transformPattern".toList, .string ['x']), ("barrel".toList, .string ['b'])]) := by
    refine .object (by decide +kernel) ?_ ?_
    · simp only [List.forall_mem_cons]
      refine ⟨?_, ?_, ?_, nofun⟩
      · exact ⟨"transformImportName", by decide, rfl, .some hsnake⟩
      · exact ⟨"transformPattern", by decide, rfl, rfl⟩
      · exact ⟨"barrel", by decide, rfl, rfl⟩
    · show ∀ name ∈ ["barrel", "transformPattern", "transformImportName", "namedExports"], _
      simp only [List.forall_mem_cons]
      exact ⟨absurd (by decide +kernel), absurd (by decide +kernel), absurd (by decide +kernel),
        fun _ => .inr ⟨rfl, rfl⟩, nofun⟩
  refine ⟨by decide, .object (by decide +kernel) ?_ ?_⟩
  · refine List.forall_mem_singleton.mpr ⟨"patterns", by decide, rfl, ?_⟩
    exact .list (.cons hfirst (.cons hsecond .nil))
  · exact List.forall_mem_singleton.mpr (absurd (by decide +kernel))

theorem writtenOptions_expressible : writtenOptions.IsExpressible := by
  refine ⟨by decide, ?_⟩
  simp only [writtenOptions, List.forall_mem_cons]
  refine ⟨⟨nofun, ?_⟩, ⟨?_, nofun⟩, nofun⟩
  · rintro _ ⟨⟩
    rfl
  · rintro _ ⟨⟩
    show "snake".toList ∉ transformTokens
    decide +kernel

theorem writtenDocument_read :
    writtenOptions.IsExpressible ∧ OptionsTree writtenOptions writtenTree ∧
      writtenTree.IsDocument writtenDocument ∧ readOptions writtenDocument = .ok writtenOptions ∧
      optionsNotices writtenDocument =
        [.missingPlaceholder ['b'] ['x'], .unknownTransform "snake".toList ['b']] := by
  have h := (readOptions_written writtenOptions_expressible).2 writtenTree writtenDocument
    writtenTree_options writtenDocument_text
  exact ⟨writtenOptions_expressible, writtenTree_options, writtenDocument_text, h.1,
    h.2.trans (by decide +kernel)⟩

end DirectImports
