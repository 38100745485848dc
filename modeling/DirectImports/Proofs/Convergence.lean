import DirectImports.Proofs.Rereading

/-! Fixing a text that has been fixed. The direct imports are not reported, so that there is nothing
left to fix. -/

namespace DirectImports

/-- What is imported without a report. -/
def Imported.IsDirect (options : RuleOptions) (imported : Imported) : Prop :=
  imported.source.bind options.match? = none ∨
    imported.specifiers.any Specifier.isNamed = false

theorem barrelOf?_eq_none_iff {options : RuleOptions} {declaration : ImportDeclaration} :
    options.barrelOf? declaration = none ↔ declaration.imported.IsDirect options := by
  unfold RuleOptions.barrelOf? Imported.IsDirect ImportDeclaration.imported
  dsimp only
  cases declaration.source with
  | none => simp
  | some source =>
    cases hm : options.match? source with
    | none => simp [hm]
    | some pattern => simp [hm]

/-- A declaration whose names that stay named are moved to modules that are no barrels. -/
def ImportDeclaration.LeavesBarrels (options : RuleOptions) (pattern : BarrelPattern)
    (declaration : ImportDeclaration) : Prop :=
  ∀ binding ∈ declaration.namedBindings,
    (pattern.namedMatch? binding.importedName).isSome = true →
    ∀ path ∈ pattern.directPath binding.importedName,
      ∀ other ∈ options.patterns, other.barrel ≠ path

instance (options : RuleOptions) (pattern : BarrelPattern) (declaration : ImportDeclaration) :
    Decidable (declaration.LeavesBarrels options pattern) :=
  inferInstanceAs (Decidable (∀ binding ∈ declaration.namedBindings, _))

def LeaveBarrels (options : RuleOptions) (declarations : List ImportDeclaration) : Prop :=
  ∀ declaration ∈ declarations, ∀ pattern ∈ options.barrelOf? declaration,
    declaration.LeavesBarrels options pattern

instance (options : RuleOptions) (declarations : List ImportDeclaration) :
    Decidable (LeaveBarrels options declarations) :=
  inferInstanceAs (Decidable (∀ declaration ∈ declarations, _))

theorem match?_eq_none {options : RuleOptions} {path : Text}
    (h : ∀ other ∈ options.patterns, other.barrel ≠ path) : options.match? path = none := by
  unfold RuleOptions.match?
  rw [List.find?_eq_none]
  intro other ho
  simpa using h other ho

theorem directImported_isDirect {options : RuleOptions} {pattern : BarrelPattern}
    {binding : NamedBinding} {imported : Imported}
    (h : directImported pattern binding = some imported)
    (hl : (pattern.namedMatch? binding.importedName).isSome = true →
      ∀ path ∈ pattern.directPath binding.importedName,
        ∀ other ∈ options.patterns, other.barrel ≠ path) : imported.IsDirect options := by
  obtain ⟨path, hp, rfl⟩ := Option.map_eq_some_iff.mp h
  cases hm : (pattern.namedMatch? binding.importedName).isSome with
  | true => exact .inl (match?_eq_none (hl hm path hp))
  | false => exact .inr (by simp [directSpecifier, hm, Specifier.isNamed])

theorem residualImported_isDirect {declaration : ImportDeclaration} {barrel : Text}
    {imported : Imported} (options : RuleOptions)
    (h : imported ∈ declaration.residualImported barrel) : imported.IsDirect options := by
  unfold ImportDeclaration.residualImported at h
  split at h
  · cases h
  · obtain rfl := List.mem_singleton.mp h
    refine .inr (List.any_eq_false.mpr fun specifier hs => ?_)
    have hn := (List.mem_filter.mp hs).2
    simpa using hn

theorem fixedImports_isDirect {options : RuleOptions} {declaration : ImportDeclaration}
    {imports : List Imported} (h : declaration.fixedImports? options = some imports)
    (hl : ∀ pattern ∈ options.barrelOf? declaration,
      declaration.LeavesBarrels options pattern) :
    ∀ imported ∈ imports, imported.IsDirect options := by
  unfold ImportDeclaration.fixedImports? at h
  split at h
  next hb =>
    obtain rfl := Option.some.inj h
    exact List.forall_mem_singleton.mpr (barrelOf?_eq_none_iff.mp hb)
  next pattern hb =>
    obtain ⟨direct, hd, rfl⟩ := Option.map_eq_some_iff.mp h
    refine List.forall_mem_append.mpr ⟨fun _ => residualImported_isDirect options, ?_⟩
    intro imported hi
    obtain ⟨binding, hbinding, hi⟩ := mem_of_mapM hd imported hi
    exact directImported_isDirect hi (hl pattern hb binding hbinding)

theorem fixedImports?_isDirect {options : RuleOptions} {declarations : List ImportDeclaration}
    {imports : List Imported} (h : fixedImports? options declarations = some imports)
    (hl : LeaveBarrels options declarations) :
    ∀ imported ∈ imports, imported.IsDirect options := by
  induction declarations generalizing imports with
  | nil =>
    obtain rfl : [] = imports := Option.some.inj h
    simp
  | cons declaration declarations ih =>
    obtain ⟨hd, hlater⟩ := List.forall_mem_cons.mp hl
    obtain ⟨first, hf, h⟩ := Option.bind_eq_some_iff.mp h
    obtain ⟨later, hl, h⟩ := Option.bind_eq_some_iff.mp h
    obtain rfl := Option.some.inj h
    exact List.forall_mem_append.mpr ⟨fixedImports_isDirect hf hd, ih hl hlater⟩

def AreDirect (options : RuleOptions) (declarations : List ImportDeclaration) : Prop :=
  ∀ declaration ∈ declarations, options.barrelOf? declaration = none

theorem dispatchAll_of_direct {options : RuleOptions} {declarations : List ImportDeclaration}
    (h : AreDirect options declarations) :
    dispatchAll options.handlers declarations = some [] := by
  induction declarations with
  | nil => rfl
  | cons declaration declarations ih =>
    obtain ⟨hd, hl⟩ := List.forall_mem_cons.mp h
    rw [dispatchAll_cons, handler_eq, hd, ih hl]
    rfl

theorem fixSource_of_lint_nil {options : RuleOptions} {path source : Text}
    (h : lintSource options path source = .ok []) : fixSource options path source = .ok source := by
  have hf : applyFixes source (fixesOf []) = some source := (Spliced.rest 0 source).applyFixes_eq
  simp only [fixSource, h, bind, Except.bind, hf]
  rfl

theorem lintSource_fixed {options : RuleOptions} {path source : Text}
    {declarations : List ImportDeclaration} {diagnostics : List Diagnostic}
    (hd : importDeclarations path source = .ok declarations)
    (hl : lintSource options path source = .ok diagnostics)
    (hw : AreWritable options declarations) (hb : LeaveBarrels options declarations)
    (hs : options.SettlesStatements path source) :
    ∃ fixed, fixSource options path source = .ok fixed ∧
      lintSource options path fixed = .ok [] := by
  obtain ⟨fixed, found, hfixed, hfound, himports⟩ := importDeclarations_fixed hd hl hw hs
  have hdirect : AreDirect options found := by
    intro declaration hm
    exact barrelOf?_eq_none_iff.mpr
      (fixedImports?_isDirect himports hb _ (List.mem_map_of_mem hm))
  exact ⟨fixed, hfixed, lintSource_eq_ok_iff.mpr ⟨found, hfound, dispatchAll_of_direct hdirect⟩⟩

/-- Fixing a source leaves nothing to report, so that fixing it again changes nothing. -/
theorem fixSource_converges {options : RuleOptions} {path source : Text}
    {declarations : List ImportDeclaration} {diagnostics : List Diagnostic}
    (hd : importDeclarations path source = .ok declarations)
    (hl : lintSource options path source = .ok diagnostics)
    (hw : AreWritable options declarations)
    (hb : LeaveBarrels options declarations)
    (hs : options.SettlesStatements path source) :
    ∃ fixed, fixSource options path source = .ok fixed ∧
      lintSource options path fixed = .ok [] ∧ fixSource options path fixed = .ok fixed := by
  obtain ⟨fixed, hfixed, hnil⟩ := lintSource_fixed hd hl hw hb hs
  exact ⟨fixed, hfixed, hnil, fixSource_of_lint_nil hnil⟩

/-- No statement is at risk where everything that is replaced stands before it. -/
theorem fixSource_converges_of_importsFirst {options : RuleOptions} {path source : Text}
    {declarations : List ImportDeclaration} {diagnostics : List Diagnostic}
    (hd : importDeclarations path source = .ok declarations)
    (hl : lintSource options path source = .ok diagnostics)
    (hw : AreWritable options declarations) (hb : LeaveBarrels options declarations)
    (hf : options.ImportsFirst path source) :
    ∃ fixed, fixSource options path source = .ok fixed ∧
      lintSource options path fixed = .ok [] ∧ fixSource options path fixed = .ok fixed := by
  obtain ⟨fixed, hfixed, hnil⟩ := lintSource_fixed hd hl hw hb hf.settlesStatements
  exact ⟨fixed, hfixed, hnil, fixSource_of_lint_nil hnil⟩

def suffixedOptions : RuleOptions where
  patterns := [suffixedPattern]

theorem suffixedOptions_hasNoFunctions : suffixedOptions.HasNoFunctions :=
  List.forall_mem_singleton.mpr suffixedPattern_hasNoFunctions

theorem mixedSource_converges : ∃ fixed,
    fixSource suffixedOptions "t.ts".toList mixedSource = .ok fixed ∧
      lintSource suffixedOptions "t.ts".toList fixed = .ok [] ∧
      fixSource suffixedOptions "t.ts".toList fixed = .ok fixed := by
  obtain ⟨diagnostics, hl⟩ := lintSource_returns suffixedOptions_hasNoFunctions.returnsNormally
    mixedSource_read
  exact fixSource_converges mixedSource_read hl (by decide +kernel) (by decide +kernel)
    (by decide +kernel)

def IsBroken (options : RuleOptions) (path source : Text) : Prop :=
  ∃ diagnostics fixed, lintSource options path source = .ok diagnostics ∧
    fixSource options path source = .ok fixed ∧
    lintSource options path fixed = .error (.unparsable path 1)

theorem isBroken_of_fixed {options : RuleOptions} {path source fixed : Text}
    (hn : options.ReturnsNormally)
    (hf : (pieces? (Language.ofPath path) source).bind (fixedText? options) = some fixed)
    (hb : pieces? (Language.ofPath path) fixed = none) : IsBroken options path source := by
  obtain ⟨diagnostics, hl, hfixed⟩ := fixSource_of_fixedText hn hf
  refine ⟨diagnostics, fixed, hl, hfixed, ?_⟩
  rw [lintSource, importDeclarations_of_unread hb]
  rfl

/-- An element and its text before an import. Type arguments would run past both if the backtick in
the import did not end their template. -/
def elementSource : Text :=
  "a < <b>(x: `</b>; import \x7bA /* ` */\x7d from 'l' // `) => c>(".toList

def elementDeclaration : ImportDeclaration where
  span := ⟨18, 45⟩
  source := some ['l']
  specifiers := [.named ['A'] ['A'] false]
  isTypeOnly := false

theorem elementSource_isBroken : IsBroken suffixedOptions "t.tsx".toList elementSource := by
  have hf : (pieces? (Language.ofPath "t.tsx".toList) elementSource).bind
      (fixedText? suffixedOptions) =
        some "a < <b>(x: `</b>; import A from \"l/a\"; // `) => c>(".toList := by
    decide +kernel
  exact isBroken_of_fixed suffixedOptions_hasNoFunctions.returnsNormally hf (by decide +kernel)

/-- The name can be bound and the path can be quoted, and yet the fixed text is broken: where the
statement in front ends is not settled before the import. -/
theorem elementSource_diverges : suffixedOptions.HasNoFunctions ∧
    importDeclarations "t.tsx".toList elementSource = .ok [elementDeclaration] ∧
    AreWritable suffixedOptions [elementDeclaration] ∧
    LeaveBarrels suffixedOptions [elementDeclaration] ∧
    ¬suffixedOptions.SettlesStatements "t.tsx".toList elementSource ∧
    IsBroken suffixedOptions "t.tsx".toList elementSource := by
  have hp : pieces? (Language.ofPath "t.tsx".toList) elementSource = some [.gap [], .gap [],
      .statement "a < <b>(x: `</b>; ".toList, .gap [],
      .declaration "import \x7bA /* ` */\x7d from 'l'".toList
        { elementDeclaration with span := ⟨0, 27⟩ },
      .gap " // `) => c>(".toList] := by
    decide +kernel
  exact ⟨suffixedOptions_hasNoFunctions, importDeclarations_of_pieces hp, by decide +kernel,
    by decide +kernel, by decide +kernel, elementSource_isBroken⟩

end DirectImports
