import Mathlib.Data.List.Forall2
import DirectImports.Proofs.Fixing

/-! Which declarations are reported. These are the ones that import a name from a barrel, and each
of them has its fix, by the first pattern of the barrel. -/

namespace DirectImports

/-- Whether a declaration imports a name from the barrel of a pattern. -/
structure RuleOptions.IsBarrelImport (options : RuleOptions) (declaration : ImportDeclaration) :
    Prop where
  barrel : ∃ source, declaration.source = some source ∧
    ∃ pattern ∈ options.patterns, pattern.barrel = source
  named : ∃ specifier ∈ declaration.specifiers, specifier.isNamed = true

/-- What is told of a declaration, and how it is fixed. -/
structure RuleOptions.Reports (options : RuleOptions) (declaration : ImportDeclaration)
    (diagnostic : Diagnostic) : Prop where
  span : diagnostic.span = declaration.span
  message : diagnostic.message = barrelMessage
  fix : ∃ source pattern text, declaration.source = some source ∧
    IsFirst (fun other => other.barrel = source) options.patterns pattern ∧
    declaration.replacement pattern = some (some text) ∧
    diagnostic.fix = some ⟨declaration.span, text⟩

theorem barrelOf?_isFirst {options : RuleOptions} {declaration : ImportDeclaration}
    {pattern : BarrelPattern} (h : options.barrelOf? declaration = some pattern) :
    ∃ source, declaration.source = some source ∧
      IsFirst (fun other => other.barrel = source) options.patterns pattern := by
  obtain ⟨source, hs, hm⟩ := Option.bind_eq_some_iff.mp (barrelOf?_eq_some h).1
  exact ⟨source, hs, match?_eq_some_iff.mp hm⟩

theorem barrelOf?_isSome_iff {options : RuleOptions} {declaration : ImportDeclaration} :
    (options.barrelOf? declaration).isSome = true ↔ options.IsBarrelImport declaration := by
  constructor
  · intro h
    obtain ⟨pattern, hb⟩ := Option.isSome_iff_exists.mp h
    obtain ⟨source, hs, hfirst⟩ := barrelOf?_isFirst hb
    exact ⟨⟨source, hs, pattern, hfirst.mem, hfirst.has⟩,
      List.any_eq_true.mp (barrelOf?_eq_some hb).2⟩
  · rintro ⟨⟨source, hs, pattern, hm, hbarrel⟩, hn⟩
    have hsome : (options.match? source).isSome = true :=
      List.find?_isSome.mpr ⟨pattern, hm, by simpa using hbarrel⟩
    obtain ⟨found, hfound⟩ := Option.isSome_iff_exists.mp hsome
    have hnamed : declaration.specifiers.any Specifier.isNamed = true := List.any_eq_true.mpr hn
    simp [RuleOptions.barrelOf?, hs, hfound, hnamed]

instance (options : RuleOptions) (declaration : ImportDeclaration) :
    Decidable (options.IsBarrelImport declaration) :=
  decidable_of_iff _ barrelOf?_isSome_iff

theorem handler_reports {options : RuleOptions} (hr : options.ReturnsNormally)
    (declaration : ImportDeclaration) :
    (options.IsBarrelImport declaration → ∃ diagnostic,
        options.handler declaration = some [diagnostic] ∧
          options.Reports declaration diagnostic) ∧
      (¬options.IsBarrelImport declaration → options.handler declaration = some []) := by
  rw [← barrelOf?_isSome_iff]
  constructor
  · intro h
    obtain ⟨pattern, hb⟩ := Option.isSome_iff_exists.mp h
    obtain ⟨source, hs, hfirst⟩ := barrelOf?_isFirst hb
    obtain ⟨statements, hst⟩ := Option.isSome_iff_exists.mp
      (directStatements_isSome (hr pattern (barrelOf?_mem hb)) declaration)
    have hreplacement : declaration.replacement pattern =
        some (some (joinWith ['\n'] statements)) := by
      rw [replacement_eq pattern (barrelOf?_eq_some hb).2, hst, Option.map_some]
    refine ⟨⟨declaration.span, barrelMessage, some ⟨declaration.span, joinWith ['\n'] statements⟩⟩,
      ?_, rfl, rfl, source, pattern, _, hs, hfirst, hreplacement, rfl⟩
    simp only [handler_eq, hb, hst, Option.map_some]
  · intro h
    have hnone : options.barrelOf? declaration = none := by simpa using h
    simp only [handler_eq, hnone]

theorem dispatchAll_congr {options others : RuleOptions}
    (h : ∀ source, others.match? source = options.match? source)
    (declarations : List ImportDeclaration) :
    dispatchAll others.handlers declarations = dispatchAll options.handlers declarations := by
  have hbarrel : others.barrelOf? = options.barrelOf? := by
    funext declaration
    simp only [RuleOptions.barrelOf?, h]
  have hhandler : others.handler = options.handler := by
    funext declaration
    rw [RuleOptions.handler, hbarrel, RuleOptions.handler]
  rw [RuleOptions.handlers, hhandler, RuleOptions.handlers]

theorem exists_reports {options : RuleOptions} (hr : options.ReturnsNormally)
    (declarations : List ImportDeclaration) :
    ∃ diagnostics, dispatchAll options.handlers declarations = some diagnostics ∧
      List.Forall₂ options.Reports
        (declarations.filter fun declaration => options.IsBarrelImport declaration)
        diagnostics := by
  induction declarations with
  | nil => exact ⟨[], rfl, .nil⟩
  | cons declaration declarations ih =>
    obtain ⟨later, hlater, hall⟩ := ih
    obtain ⟨hone, hnone⟩ := handler_reports hr declaration
    by_cases hb : options.IsBarrelImport declaration
    · obtain ⟨diagnostic, hhandler, hdiagnostic⟩ := hone hb
      refine ⟨diagnostic :: later, ?_, ?_⟩
      · rw [dispatchAll_cons, hhandler, hlater]
        rfl
      · rw [List.filter_cons, if_pos (decide_eq_true hb)]
        exact .cons hdiagnostic hall
    · refine ⟨later, ?_, ?_⟩
      · rw [dispatchAll_cons, hnone hb, hlater]
        rfl
      · rwa [List.filter_cons, if_neg (by simpa using hb)]

/-- Exactly the imports of names from barrels are reported, each once and in order, each with the
fix that the first pattern of its barrel gives. A pattern behind another of its barrel does nothing,
nor does the order of two patterns of different barrels. -/
theorem dispatchAll_reports {options : RuleOptions} (hr : options.ReturnsNormally)
    (declarations : List ImportDeclaration) :
    ∃ diagnostics, dispatchAll options.handlers declarations = some diagnostics ∧
      List.Forall₂ options.Reports
        (declarations.filter fun declaration => options.IsBarrelImport declaration) diagnostics ∧
      (∀ before pattern after, options.patterns = before ++ pattern :: after →
        (∃ earlier ∈ before, earlier.barrel = pattern.barrel) →
        dispatchAll (RuleOptions.handlers ⟨before ++ after⟩) declarations = some diagnostics) ∧
      ∀ before a b after, options.patterns = before ++ a :: b :: after → a.barrel ≠ b.barrel →
        dispatchAll (RuleOptions.handlers ⟨before ++ b :: a :: after⟩) declarations =
          some diagnostics := by
  obtain ⟨diagnostics, hdispatch, hall⟩ := exists_reports hr declarations
  obtain ⟨patterns⟩ := options
  refine ⟨diagnostics, hdispatch, hall, ?_, ?_⟩
  · rintro before pattern after rfl hearlier
    rw [dispatchAll_congr (match?_without hearlier), hdispatch]
  · rintro before a b after rfl hne
    rw [dispatchAll_congr (match?_exchanged hne), hdispatch]

def kebabPattern (barrel : Text) : BarrelPattern where
  barrel := barrel
  transformPattern := barrel ++ "/\x7b\x7bimportName\x7d\x7d".toList
  transformImportName := some .kebabCase
  namedExports := none

/-- The last pattern is for the barrel of the first one. -/
def repeatedOptions : RuleOptions where
  patterns := underscoredOptions.patterns ++ [kebabPattern ['m'], kebabPattern ['l']]

def typeDeclaration : ImportDeclaration where
  span := ⟨60, 97⟩
  source := some ['m']
  specifiers := [.named "DatePicker".toList ['P'] false]
  isTypeOnly := true

/-- Two imports of names from barrels, and between them one without names and one without a source
that is known. -/
def manyDeclarations : List ImportDeclaration :=
  [mixedDeclaration, ⟨⟨39, 50⟩, some ['m'], [.byDefault ['d']], false⟩,
    ⟨⟨51, 59⟩, none, [.named ['A'] ['A'] false], false⟩, typeDeclaration]

def manyReports : List Diagnostic :=
  [⟨⟨4, 38⟩, barrelMessage, some ⟨⟨4, 38⟩, ("import d from \"l\";\n" ++
      "import b from \"l/_A\";\nimport BType from \"l/_BType\";").toList⟩⟩,
    ⟨⟨60, 97⟩, barrelMessage, some ⟨⟨60, 97⟩, "import type P from \"m/date-picker\";".toList⟩⟩]

theorem kebabPattern_returnsNormally (barrel : Text) : (kebabPattern barrel).ReturnsNormally := by
  refine ⟨fun transform ht => ?_, fun exports transform he => ?_⟩
  · simp [kebabPattern] at ht
  · simp [kebabPattern] at he

theorem repeatedOptions_returnsNormally : repeatedOptions.ReturnsNormally := by
  intro pattern hm
  rcases List.mem_append.mp hm with hm | hm
  · exact underscoredOptions_returnsNormally pattern hm
  · simp only [List.mem_cons, List.not_mem_nil, or_false] at hm
    rcases hm with rfl | rfl
    · exact kebabPattern_returnsNormally _
    · exact kebabPattern_returnsNormally _

theorem manyDeclarations_reported : repeatedOptions.ReturnsNormally ∧
    List.Forall₂ repeatedOptions.Reports [mixedDeclaration, typeDeclaration] manyReports ∧
    dispatchAll (RuleOptions.handlers ⟨underscoredOptions.patterns ++ [kebabPattern ['m']]⟩)
      manyDeclarations = some manyReports ∧
    dispatchAll (RuleOptions.handlers
      ⟨kebabPattern ['m'] :: underscoredOptions.patterns ++ [kebabPattern ['l']]⟩)
      manyDeclarations = some manyReports := by
  obtain ⟨diagnostics, hdispatch, hall, hwithout, hexchanged⟩ :=
    dispatchAll_reports repeatedOptions_returnsNormally manyDeclarations
  have hresult : dispatchAll repeatedOptions.handlers manyDeclarations = some manyReports := by
    decide +kernel
  have hfilter : (manyDeclarations.filter fun declaration =>
      repeatedOptions.IsBarrelImport declaration) = [mixedDeclaration, typeDeclaration] := by
    decide +kernel
  obtain rfl := Option.some.inj (hdispatch.symm.trans hresult)
  rw [hfilter] at hall
  refine ⟨repeatedOptions_returnsNormally, hall, ?_, ?_⟩
  · exact hwithout (underscoredOptions.patterns ++ [kebabPattern ['m']]) (kebabPattern ['l']) []
      rfl ⟨_, .head _, rfl⟩
  · exact hexchanged [] _ (kebabPattern ['m']) [kebabPattern ['l']] rfl (by decide)

end DirectImports
