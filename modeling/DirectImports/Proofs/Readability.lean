import DirectImports.Proofs.Convergence

/-! Fixing without custom functions. The paths that are computed can be quoted if the names can, and
then a fixed source can be read again. -/

namespace DirectImports

theorem toLower_eq_or (c : Char) :
    c.toLower = c ∨ 97 ≤ c.toLower.toNat ∧ c.toLower.toNat ≤ 122 := by
  unfold Char.toLower
  split
  next h =>
    have hA : 65 ≤ c.val.toNat := h.1
    have hZ : c.val.toNat ≤ 90 := h.2
    have hval : (c.val + ('a'.val - 'A'.val)).toNat = c.val.toNat + 32 := by
      have hmod : (c.val.toNat + 32) % 2 ^ 32 = c.val.toNat + 32 := Nat.mod_eq_of_lt (by omega)
      rw [UInt32.toNat_add]
      exact hmod
    refine .inr ?_
    change 97 ≤ (c.val + ('a'.val - 'A'.val)).toNat ∧ (c.val + ('a'.val - 'A'.val)).toNat ≤ 122
    omega
  next => exact .inl rfl

theorem isQuotable_append_iff {a b : Text} :
    IsQuotable (a ++ b) ↔ IsQuotable a ∧ IsQuotable b :=
  List.forall_mem_append

theorem isQuotable_cons_iff {c : Char} {text : Text} :
    IsQuotable (c :: text) ↔ (c ≠ '"' ∧ c ≠ '\\' ∧ c ≠ '\n' ∧ c ≠ '\r') ∧ IsQuotable text :=
  List.forall_mem_cons

theorem toLower_quotable {c : Char} (h : c ≠ '"' ∧ c ≠ '\\' ∧ c ≠ '\n' ∧ c ≠ '\r') :
    c.toLower ≠ '"' ∧ c.toLower ≠ '\\' ∧ c.toLower ≠ '\n' ∧ c.toLower ≠ '\r' := by
  rcases toLower_eq_or c with he | ⟨ha, hz⟩
  · rwa [he]
  · refine ⟨?_, ?_, ?_, ?_⟩
    all_goals
      intro hd
      rw [hd] at ha hz
      revert ha hz
      decide

theorem IsQuotable.lowerCase {text : Text} (h : IsQuotable text) :
    IsQuotable (lowerCase text) :=
  List.forall_mem_map.mpr fun c hc => toLower_quotable (h c hc)

theorem IsQuotable.hyphenateAfter {text : Text} (h : IsQuotable text) (previous : Char) :
    IsQuotable (hyphenateAfter previous text) := by
  induction text generalizing previous with
  | nil => exact h
  | cons c text ih =>
    obtain ⟨hc, ht⟩ := isQuotable_cons_iff.mp h
    unfold DirectImports.hyphenateAfter
    split
    · exact isQuotable_cons_iff.mpr ⟨by decide, isQuotable_cons_iff.mpr ⟨hc, ih ht c⟩⟩
    · exact isQuotable_cons_iff.mpr ⟨hc, ih ht c⟩

theorem IsQuotable.kebabCase {text : Text} (h : IsQuotable text) :
    IsQuotable (kebabCase text) := by
  refine IsQuotable.lowerCase ?_
  cases text with
  | nil => exact h
  | cons c text =>
    obtain ⟨hc, ht⟩ := isQuotable_cons_iff.mp h
    exact isQuotable_cons_iff.mpr ⟨hc, ht.hyphenateAfter c⟩

theorem IsQuotable.camelCase {text : Text} (h : IsQuotable text) :
    IsQuotable (camelCase text) := by
  cases text with
  | nil => exact h
  | cons c text =>
    obtain ⟨hc, ht⟩ := isQuotable_cons_iff.mp h
    exact isQuotable_cons_iff.mpr ⟨toLower_quotable hc, ht⟩

theorem IsQuotable.fill {template name : Text} (ht : IsQuotable template)
    (hn : IsQuotable name) : IsQuotable (fill template name) := by
  unfold DirectImports.fill replaceFirst
  split
  next before after hs =>
    rw [splitFirst_eq hs, isQuotable_append_iff, isQuotable_append_iff] at ht
    exact isQuotable_append_iff.mpr ⟨isQuotable_append_iff.mpr ⟨ht.1.1, hn⟩, ht.2⟩
  next => exact ht

theorem IsQuotable.transformed {pattern : BarrelPattern} {name moved : Text}
    (hf : pattern.HasNoFunctions) (hn : IsQuotable name)
    (h : NameTransform.apply pattern.transformImportName name = some moved) :
    IsQuotable moved := by
  cases ht : pattern.transformImportName with
  | none =>
    rw [ht] at h
    exact Option.some.inj h ▸ hn
  | some transform =>
    rw [ht] at h
    cases transform with
    | lowercase => exact Option.some.inj h ▸ hn.lowerCase
    | kebabCase => exact Option.some.inj h ▸ hn.kebabCase
    | camelCase => exact Option.some.inj h ▸ hn.camelCase
    | custom transform => exact absurd ht (hf.transform transform)
    | unrecognized => exact Option.some.inj h ▸ hn

structure BarrelPattern.IsQuotable (pattern : BarrelPattern) : Prop where
  barrel : DirectImports.IsQuotable pattern.barrel
  template : DirectImports.IsQuotable pattern.transformPattern
  custom : ∀ exports ∈ pattern.namedExports, ∀ template ∈ exports.customPattern,
    DirectImports.IsQuotable template

theorem directPath_isQuotable {pattern : BarrelPattern} {name path : Text}
    (hf : pattern.HasNoFunctions) (hp : pattern.IsQuotable) (hn : IsQuotable name)
    (h : pattern.directPath name = some path) : IsQuotable path := by
  obtain ⟨template, base, hroutes, rfl⟩ := exists_routes_of_directPath h
  cases hroutes with
  | whole hs hb => exact hp.template.fill (IsQuotable.transformed hf hn hb)
  | @stripped exports front suffix base hs hfunction hb =>
    rw [hs.name_eq] at hn
    have hbase := IsQuotable.transformed hf (isQuotable_append_iff.mp hn).1 hb
    cases hc : exports.customPattern with
    | none => exact hp.template.fill hbase
    | some template => exact (hp.custom exports hs.configured template hc).fill hbase
  | called hs hfunction =>
    rw [hf.exports _ hs.configured] at hfunction
    cases hfunction

def RuleOptions.IsQuotable (options : RuleOptions) : Prop :=
  ∀ pattern ∈ options.patterns, pattern.IsQuotable

/-- Declarations whose local names can stand in their direct imports, and whose imported names can
stand in the paths. -/
def AreNameable (options : RuleOptions) (declarations : List ImportDeclaration) : Prop :=
  ∀ declaration ∈ declarations, ∀ pattern ∈ options.barrelOf? declaration,
    declaration.IsNameable pattern ∧
      ∀ binding ∈ declaration.namedBindings, DirectImports.IsQuotable binding.importedName

instance (options : RuleOptions) (declarations : List ImportDeclaration) :
    Decidable (AreNameable options declarations) :=
  inferInstanceAs (Decidable (∀ declaration ∈ declarations, _))

theorem AreNameable.areWritable {options : RuleOptions} {declarations : List ImportDeclaration}
    (hf : options.HasNoFunctions) (hq : options.IsQuotable)
    (h : AreNameable options declarations) : AreWritable options declarations := by
  intro declaration hd pattern hp
  obtain ⟨hn, hi⟩ := h declaration hd pattern hp
  have hm := barrelOf?_mem hp
  refine ⟨hn, (hq pattern hm).barrel, fun binding hb path hpath => ?_⟩
  exact directPath_isQuotable (hf pattern hm) (hq pattern hm) (hi binding hb) hpath

/-- A source that can be read can be read once it is fixed. -/
theorem fixSource_readable {options : RuleOptions} {path source : Text}
    {declarations : List ImportDeclaration} (hf : options.HasNoFunctions)
    (hq : options.IsQuotable) (hd : importDeclarations path source = .ok declarations)
    (hn : AreNameable options declarations) (hs : options.SettlesStatements path source) :
    ∃ fixed found, fixSource options path source = .ok fixed ∧
      importDeclarations path fixed = .ok found := by
  obtain ⟨diagnostics, hl⟩ := lintSource_returns hf.returnsNormally hd
  obtain ⟨fixed, found, hfixed, hfound, -⟩ :=
    importDeclarations_fixed hd hl (hn.areWritable hf hq) hs
  exact ⟨fixed, found, hfixed, hfound⟩

theorem fixSource_readable_of_importsFirst {options : RuleOptions} {path source : Text}
    {declarations : List ImportDeclaration} (hf : options.HasNoFunctions)
    (hq : options.IsQuotable) (hd : importDeclarations path source = .ok declarations)
    (hn : AreNameable options declarations) (hi : options.ImportsFirst path source) :
    ∃ fixed found, fixSource options path source = .ok fixed ∧
      importDeclarations path fixed = .ok found := by
  obtain ⟨diagnostics, hl⟩ := lintSource_returns hf.returnsNormally hd
  obtain ⟨fixed, found, hfixed, hfound, -⟩ :=
    importDeclarations_fixed hd hl (hn.areWritable hf hq) hi.settlesStatements
  exact ⟨fixed, found, hfixed, hfound⟩

theorem suffixedOptions_isQuotable : suffixedOptions.IsQuotable := by
  refine List.forall_mem_singleton.mpr ⟨by decide, by decide, fun exports he template ht => ?_⟩
  obtain rfl := Option.some.inj he
  cases ht

theorem mixedSource_readable : ∃ fixed found,
    fixSource suffixedOptions "t.ts".toList mixedSource = .ok fixed ∧
      importDeclarations "t.ts".toList fixed = .ok found :=
  fixSource_readable suffixedOptions_hasNoFunctions suffixedOptions_isQuotable mixedSource_read
    (by decide +kernel) (by decide +kernel)

/-- A quotation mark in a name ends the path that the name is put into. -/
theorem quotedName_isBroken : IsBroken suffixedOptions "t.ts".toList
    "import \x7b'\"' as B\x7d from 'l'".toList := by
  have hf : (pieces? (Language.ofPath "t.ts".toList)
      "import \x7b'\"' as B\x7d from 'l'".toList).bind (fixedText? suffixedOptions) =
        some "import B from \"l/\"\";".toList := by
    decide +kernel
  exact isBroken_of_fixed suffixedOptions_hasNoFunctions.returnsNormally hf (by decide +kernel)

/-- A reserved word may be imported under its own name in braces only. -/
theorem reservedName_isBroken : IsBroken suffixedOptions "t.ts".toList
    "import \x7bif\x7d from 'l'".toList := by
  have hf : (pieces? (Language.ofPath "t.ts".toList)
      "import \x7bif\x7d from 'l'".toList).bind (fixedText? suffixedOptions) =
        some "import if from \"l/if\";".toList := by
    decide +kernel
  exact isBroken_of_fixed suffixedOptions_hasNoFunctions.returnsNormally hf (by decide +kernel)

/-- Without any one of its three conditions a source may be broken. -/
theorem fixSource_unreadable : suffixedOptions.HasNoFunctions ∧ suffixedOptions.IsQuotable ∧
    IsBroken suffixedOptions "t.ts".toList "import \x7b'\"' as B\x7d from 'l'".toList ∧
    IsBroken suffixedOptions "t.ts".toList "import \x7bif\x7d from 'l'".toList ∧
    IsBroken suffixedOptions "t.tsx".toList elementSource :=
  ⟨suffixedOptions_hasNoFunctions, suffixedOptions_isQuotable, quotedName_isBroken,
    reservedName_isBroken, elementSource_isBroken⟩

end DirectImports
