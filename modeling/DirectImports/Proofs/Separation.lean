import DirectImports.Proofs.LoadedOptions
import DirectImports.Proofs.ModulePath

/-! Which names stay apart. A name goes through one of two templates, and different base names give
different modules where that template has a placeholder. Options are warned about for the template
of default imports only. -/

namespace DirectImports

namespace BarrelPattern

/-- The suffix that keeps a name named; nothing for a name that becomes a default import. -/
def route (pattern : BarrelPattern) (name : Text) : Option Text :=
  (pattern.namedMatch? name).map Prod.snd

def namedTemplate (pattern : BarrelPattern) : Text :=
  (pattern.namedExports.bind NamedExports.customPattern).getD pattern.transformPattern

def routeTemplate (pattern : BarrelPattern) (route : Option Text) : Text :=
  if route.isSome then pattern.namedTemplate else pattern.transformPattern

/-- Different base names on a route give different modules. -/
def Separates (pattern : BarrelPattern) (route : Option Text) : Prop :=
  ∀ name other template template' base base',
    pattern.Routes name template base → pattern.Routes other template' base' →
    pattern.route name = route → pattern.route other = route → base ≠ base' →
      ∃ path path', pattern.directPath name = some path ∧ pattern.directPath other = some path' ∧
        path ≠ path'

end BarrelPattern

variable {pattern : BarrelPattern}

theorem BarrelPattern.HasSuffix.route_eq {exports : NamedExports} {name base suffix : Text}
    (h : pattern.HasSuffix exports name base suffix) :
    pattern.route name = some suffix ∧
      pattern.namedTemplate = exports.customPattern.getD pattern.transformPattern := by
  constructor
  · rw [route, h.namedMatch?_eq, Option.map_some]
  · rw [namedTemplate, h.configured, Option.bind_some]

theorem BarrelPattern.Routes.template_eq {name template base : Text}
    (h : pattern.Routes name template base) :
    template = pattern.routeTemplate (pattern.route name) := by
  cases h with
  | whole hs hb =>
    rw [route, namedMatch?_eq_none_iff.mpr hs]
    rfl
  | stripped hs hf hb =>
    rw [hs.route_eq.1, ← hs.route_eq.2]
    rfl
  | called hs hf hb =>
    rw [hs.route_eq.1, ← hs.route_eq.2]
    rfl

theorem exists_suffix_of_route {name suffix : Text} (h : pattern.route name = some suffix) :
    ∃ exports, pattern.namedExports = some exports ∧ suffix ∈ exports.suffixes := by
  obtain ⟨⟨exports, found⟩, hm, rfl⟩ := Option.map_eq_some_iff.mp h
  obtain ⟨he, hs⟩ := namedMatch?_eq_some_iff.mp hm
  exact ⟨exports, he, (suffix?_eq_some_iff.mp hs).mem⟩

theorem separates_of_placeholder {route : Option Text}
    (h : placeholder <:+: pattern.routeTemplate route) : pattern.Separates route := by
  intro name other template template' base base' hname hother hr hr' hne
  obtain rfl : template = pattern.routeTemplate route := hr ▸ hname.template_eq
  obtain rfl : template' = pattern.routeTemplate route := hr' ▸ hother.template_eq
  refine ⟨_, _, hname.directPath_eq, hother.directPath_eq, fun hpath => hne ?_⟩
  exact ((fill_filled _ base).eq_iff (fill_filled _ base') h).mp hpath

/-- A small letter is a base name of its own, whatever the transform is. -/
theorem apply_letter (hf : pattern.HasNoFunctions) {c : Char} (hc : c.toLower = c) :
    NameTransform.apply pattern.transformImportName [c] = some [c] := by
  have hlower : lowerCase [c] = [c] := congrArg (· :: []) hc
  cases ht : pattern.transformImportName with
  | none => rfl
  | some transform =>
    cases transform with
    | lowercase => exact congrArg some hlower
    | kebabCase => exact congrArg some hlower
    | camelCase => exact congrArg some hlower
    | custom transform => exact absurd ht (hf.transform transform)
    | unrecognized token => rfl

/-- A letter before the first suffix takes the route of that suffix. -/
theorem routes_before_suffix {exports : NamedExports} {suffix : Text} {suffixes : List Text}
    (hf : pattern.HasNoFunctions) (he : pattern.namedExports = some exports)
    (hs : exports.suffixes = suffix :: suffixes) {c : Char} (hc : c.toLower = c) :
    pattern.Routes (c :: suffix) pattern.namedTemplate [c] ∧
      pattern.route (c :: suffix) = some suffix := by
  have hsuffix : pattern.HasSuffix exports (c :: suffix) [c] suffix :=
    ⟨he, ⟨[], suffixes, hs, List.suffix_cons c suffix, nofun⟩, rfl⟩
  obtain ⟨hroute, htemplate⟩ := hsuffix.route_eq
  rw [htemplate]
  exact ⟨.stripped hsuffix (hf.exports exports he) (apply_letter hf hc), hroute⟩

/-- Without a placeholder all named exports of one suffix are moved to the same module. -/
theorem not_separates {exports : NamedExports} {suffix : Text} {suffixes : List Text}
    (hf : pattern.HasNoFunctions) (he : pattern.namedExports = some exports)
    (hs : exports.suffixes = suffix :: suffixes) (hp : ¬placeholder <:+: pattern.namedTemplate) :
    ¬pattern.Separates (some suffix) := by
  intro h
  obtain ⟨ha, hra⟩ := routes_before_suffix hf he hs (c := 'a') rfl
  obtain ⟨hb, hrb⟩ := routes_before_suffix hf he hs (c := 'b') rfl
  obtain ⟨path, path', hpath, hpath', hne⟩ := h _ _ _ _ _ _ ha hb hra hrb (by decide)
  have hfill (name : Text) : fill pattern.namedTemplate name = pattern.namedTemplate :=
    (fill_filled _ name).unique (.without hp) |>.symm
  rw [ha.directPath_eq, hfill] at hpath
  rw [hb.directPath_eq, hfill] at hpath'
  exact hne (Option.some.inj (hpath.symm.trans hpath'))

theorem optionsNotices_eq {text : Text} {options : RuleOptions}
    (h : readOptions text = .ok options) : optionsNotices text = options.notices := by
  simp only [optionsNotices, h]

theorem placeholder_of_unwarned {text : Text} {options : RuleOptions}
    (h : readOptions text = .ok options)
    (hn : ∀ barrel template, .missingPlaceholder barrel template ∉ optionsNotices text) :
    ∀ pattern ∈ options.patterns, placeholder <:+: pattern.transformPattern := by
  intro pattern hm
  by_contra hp
  refine hn pattern.barrel pattern.transformPattern ?_
  have hwarned : .missingPlaceholder pattern.barrel pattern.transformPattern ∈ pattern.notices := by
    simp [BarrelPattern.notices, mt contains_iff.mp hp]
  rw [optionsNotices_eq h]
  exact List.mem_flatMap.mpr ⟨pattern, hm, hwarned⟩

/-- Options that are read without a notice of a missing placeholder keep the names of all default
imports apart. They keep named exports apart if and only if the template of the named exports, where
there is one that a name can get into, has a placeholder too. -/
theorem separates_iff_of_unwarned {text : Text} {options : RuleOptions}
    (h : readOptions text = .ok options)
    (hn : ∀ barrel template, .missingPlaceholder barrel template ∉ optionsNotices text) :
    ∀ pattern ∈ options.patterns, pattern.Separates none ∧
      ((∀ suffix, pattern.Separates (some suffix)) ↔
        ∀ exports ∈ pattern.namedExports, exports.suffixes ≠ [] →
          ∀ template ∈ exports.customPattern, placeholder <:+: template) := by
  intro pattern hm
  have hdefault := placeholder_of_unwarned h hn pattern hm
  have hf := readOptions_hasNoFunctions h pattern hm
  refine ⟨separates_of_placeholder hdefault, ?_, ?_⟩
  · intro hseparates exports he hs template ht
    obtain ⟨suffix, suffixes, hs⟩ := List.exists_cons_of_ne_nil hs
    have htemplate : pattern.namedTemplate = template := by
      rw [BarrelPattern.namedTemplate, he, Option.bind_some, ht, Option.getD_some]
    rw [← htemplate]
    by_contra hp
    exact not_separates hf he hs hp (hseparates suffix)
  · intro hcustom suffix
    by_cases hp : placeholder <:+: pattern.namedTemplate
    · exact separates_of_placeholder hp
    -- Then no name has the suffix.
    intro name other template template' base base' hname hother hr
    obtain ⟨exports, he, hsuffix⟩ := exists_suffix_of_route hr
    rw [BarrelPattern.namedTemplate, he, Option.bind_some] at hp
    cases hc : exports.customPattern with
    | none =>
      rw [hc] at hp
      exact absurd hdefault hp
    | some custom =>
      rw [hc] at hp
      exact absurd (hcustom exports he (List.ne_nil_of_mem hsuffix) custom hc) hp

/-- Options with a template for the names that end in `Type`. -/
def typesText (template : Text) : Text :=
  "\x7b\"patterns\":[\x7b\"barrel\":\"l\",\"transformPattern\":\"l/".toList ++ placeholder ++
    "\",\"namedExports\":\x7b\"suffixes\":[\"Type\"],\"customPattern\":\"".toList ++ template ++
    "\"\x7d\x7d]\x7d".toList

theorem exists_ok_of_map {ε α β : Type} {result : Except ε α} {f : α → β} {b : β}
    (h : result.toOption.map f = some b) : ∃ a, result = .ok a ∧ f a = b := by
  cases result with
  | error problem => cases h
  | ok a => exact ⟨a, rfl, Option.some.inj h⟩

theorem typesText_separates : ∃ options,
    readOptions (typesText ("t/".toList ++ placeholder)) = .ok options ∧
      optionsNotices (typesText ("t/".toList ++ placeholder)) = [] ∧ options.patterns ≠ [] ∧
      ∀ pattern ∈ options.patterns, ∀ route, pattern.Separates route := by
  have hread : (readOptions (typesText ("t/".toList ++ placeholder))).toOption.map (fun options =>
      (options.notices, options.patterns.map fun pattern =>
        pattern.namedExports.map NamedExports.customPattern)) =
      some ([], [some (some ("t/".toList ++ placeholder))]) := by
    decide +kernel
  obtain ⟨options, hok, hparts⟩ := exists_ok_of_map hread
  obtain ⟨hnotices, hcustom⟩ := Prod.mk.inj hparts
  rw [← optionsNotices_eq hok] at hnotices
  have hn : ∀ barrel template, .missingPlaceholder barrel template ∉
      optionsNotices (typesText ("t/".toList ++ placeholder)) := by
    rw [hnotices]
    exact fun _ _ => List.not_mem_nil
  refine ⟨options, hok, hnotices, ?_, fun pattern hm route => ?_⟩
  · intro hnone
    rw [hnone] at hcustom
    cases hcustom
  obtain ⟨hdefault, hnamed⟩ := separates_iff_of_unwarned hok hn pattern hm
  cases route with
  | none => exact hdefault
  | some suffix =>
    refine hnamed.mpr (fun exports he _ template ht => ?_) suffix
    have hpattern := List.mem_map_of_mem (f := fun pattern : BarrelPattern =>
      pattern.namedExports.map NamedExports.customPattern) hm
    rw [hcustom, List.mem_singleton, he, Option.map_some, Option.some_inj, ht,
      Option.some_inj] at hpattern
    exact hpattern ▸ (List.suffix_append _ _).isInfix

/-- Nothing warns of a template without a placeholder for named exports, and then names with
different base names are moved to one module. -/
theorem typesText_collides : ∃ options pattern,
    readOptions (typesText ['t']) = .ok options ∧ optionsNotices (typesText ['t']) = [] ∧
      pattern ∈ options.patterns ∧
      pattern.Routes "aType".toList ['t'] ['a'] ∧ pattern.Routes "bType".toList ['t'] ['b'] ∧
      pattern.route "aType".toList = pattern.route "bType".toList ∧
      pattern.directPath "aType".toList = some ['t'] ∧
      pattern.directPath "bType".toList = some ['t'] := by
  have hread : (readOptions (typesText ['t'])).toOption.map (fun options =>
      (options.notices, options.patterns.map fun pattern =>
        (pattern.namedTemplate, pattern.namedExports.map NamedExports.suffixes))) =
      some ([], [(['t'], some ["Type".toList])]) := by
    decide +kernel
  obtain ⟨options, hok, hparts⟩ := exists_ok_of_map hread
  obtain ⟨hnotices, hpatterns⟩ := Prod.mk.inj hparts
  obtain ⟨pattern, hoptions, hpattern⟩ := List.map_eq_singleton_iff.mp hpatterns
  obtain ⟨htemplate, hsuffixes⟩ := Prod.mk.inj hpattern
  obtain ⟨exports, he, hs⟩ := Option.map_eq_some_iff.mp hsuffixes
  have hm : pattern ∈ options.patterns := hoptions ▸ List.mem_singleton_self pattern
  have hf := readOptions_hasNoFunctions hok pattern hm
  obtain ⟨ha, hra⟩ := routes_before_suffix hf he hs (c := 'a') rfl
  obtain ⟨hb, hrb⟩ := routes_before_suffix hf he hs (c := 'b') rfl
  rw [htemplate] at ha hb
  exact ⟨options, pattern, hok, (optionsNotices_eq hok).trans hnotices, hm, ha, hb,
    hra.trans hrb.symm, ha.directPath_eq, hb.directPath_eq⟩

end DirectImports
