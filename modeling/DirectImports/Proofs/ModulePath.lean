import DirectImports.Proofs.Boundary
import DirectImports.Proofs.DirectPath
import DirectImports.Proofs.Substitution

/-! The module that a name is moved to. A suffix is cut off without harm, so that a name with a
suffix comes from the module of the name before it, and different base names give different modules
wherever a template has a placeholder. -/

namespace DirectImports

section

variable {pattern : BarrelPattern} {name base suffix : Text}

/-- A suffix that a name ends with can be cut off by its length in bytes. -/
theorem baseName_eq (h : name = base ++ suffix) :
    byteLength suffix ≤ byteLength name ∧
      IsBoundary name (byteLength name - byteLength suffix) ∧
      BarrelPattern.baseName name suffix = some base := by
  subst h
  have hlength : byteLength (base ++ suffix) = byteLength base + byteLength suffix :=
    byteLength_append base suffix
  have hcut : byteLength (base ++ suffix) - byteLength suffix = byteLength base := by omega
  refine ⟨by omega, ?_, baseName_append base suffix⟩
  rw [hcut]
  exact ⟨base, suffix, rfl, rfl⟩

theorem BarrelPattern.HasSuffix.statement_eq {exports : NamedExports} {binding : NamedBinding}
    (h : pattern.HasSuffix exports binding.importedName base suffix) :
    directStatement pattern binding = (pattern.directPath binding.importedName).map
      (importStatement binding.isTypeOnly (bracedName binding.localName)) := by
  rw [directStatement_eq, directClause, h.namedMatch?_eq]
  rfl

theorem BarrelPattern.HasNoSuffix.statement_eq {binding : NamedBinding}
    (h : pattern.HasNoSuffix binding.importedName) :
    directStatement pattern binding = (pattern.defaultPath binding.importedName).map
      (importStatement binding.isTypeOnly binding.localName) := by
  rw [directStatement_eq, h.directPath_eq, directClause,
    namedMatch?_eq_none_iff.mpr h]
  rfl

/-- Without custom functions every name has its statement, for a suffix is cut off between two
characters. Without a template of its own, a name with a suffix comes from the module that the name
before the suffix comes from. -/
theorem directStatement_strips (hf : pattern.HasNoFunctions) (binding : NamedBinding) :
    (∃ text, directStatement pattern binding = some text) ∧
    ∀ exports base suffix, pattern.HasSuffix exports binding.importedName base suffix →
      byteLength suffix ≤ byteLength binding.importedName ∧
      IsBoundary binding.importedName
        (byteLength binding.importedName - byteLength suffix) ∧
      BarrelPattern.baseName binding.importedName suffix = some base ∧
      (exports.customPattern = none →
        ∃ path, pattern.defaultPath base = some path ∧
          directStatement pattern binding =
            some (importStatement binding.isTypeOnly (bracedName binding.localName) path) ∧
          ∀ component : NamedBinding, component.importedName = base →
            pattern.HasNoSuffix base → directStatement pattern component =
              some (importStatement component.isTypeOnly component.localName path)) := by
  obtain ⟨path, hpath⟩ := Option.isSome_iff_exists.mp
    (directPath_isSome hf.returnsNormally binding.importedName)
  constructor
  · rw [directStatement_eq, hpath]
    exact ⟨_, rfl⟩
  intro exports base suffix hs
  obtain ⟨hle, hboundary, hbase⟩ := baseName_eq hs.name_eq
  -- The name before the suffix may have a suffix too. Then its own module is another one.
  refine ⟨hle, hboundary, hbase, fun hc => ⟨path, ?_⟩⟩
  have hdefault : pattern.defaultPath base = some path := by
    rw [hs.directPath_stripped (hf.exports exports hs.configured), hc] at hpath
    exact hpath
  refine ⟨hdefault, ?_, ?_⟩
  · rw [hs.statement_eq, hpath, Option.map_some]
  · rintro component rfl hcomponent
    rw [hcomponent.statement_eq, hdefault, Option.map_some]

/-- The first suffix that a name ends with is longer than the second one. -/
def accentedPattern : BarrelPattern where
  barrel := ['l']
  transformPattern := "l/".toList ++ placeholder
  transformImportName := some .kebabCase
  namedExports := some ⟨["éProps".toList, "Props".toList], none, none⟩

theorem accentedPattern_hasNoFunctions : accentedPattern.HasNoFunctions := by
  refine ⟨fun transform => by simp [accentedPattern], fun exports he => ?_⟩
  obtain rfl := Option.some.inj he
  rfl

theorem accentedName_strips : accentedPattern.HasNoFunctions ∧
    IsBoundary "CaféProps".toList (10 - 7) ∧
    directStatement accentedPattern ⟨"CaféProps".toList, ['P'], true⟩ =
      some "import type \x7b P \x7d from \"l/caf\";".toList ∧
    directStatement accentedPattern ⟨"Caf".toList, ['C'], false⟩ =
      some "import C from \"l/caf\";".toList := by
  have hsuffix : accentedPattern.HasSuffix ⟨["éProps".toList, "Props".toList], none, none⟩
      "CaféProps".toList "Caf".toList "éProps".toList :=
    ⟨rfl, ⟨[], [_], rfl, by decide, nofun⟩, rfl⟩
  have hnone : accentedPattern.HasNoSuffix "Caf".toList := by
    intro exports he
    obtain rfl := Option.some.inj he
    decide
  have hcaf : accentedPattern.defaultPath "Caf".toList = some "l/caf".toList := by decide +kernel
  obtain ⟨-, hstrips⟩ :=
    directStatement_strips accentedPattern_hasNoFunctions ⟨"CaféProps".toList, ['P'], true⟩
  obtain ⟨-, hboundary, -, hbase⟩ := hstrips _ _ _ hsuffix
  obtain ⟨path, hpath, hstatement, hcomponent⟩ := hbase rfl
  obtain rfl := Option.some.inj (hpath.symm.trans hcaf)
  refine ⟨accentedPattern_hasNoFunctions, hboundary, ?_, ?_⟩
  · rw [hstatement]
    decide +kernel
  · rw [hcomponent ⟨"Caf".toList, ['C'], false⟩ rfl hnone]
    decide +kernel

/-- Every name is moved to the module of one template with one base name in it. The base name takes
the place of the first placeholder, so that different base names give different modules unless the
template has no placeholder. -/
theorem directStatement_fills (hr : pattern.ReturnsNormally) (binding : NamedBinding) :
    (∃ template base, pattern.Routes binding.importedName template base) ∧
    (∀ template base, pattern.Routes binding.importedName template base →
      ∃ path, Filled template base path ∧ (∀ other, Filled template base other → other = path) ∧
        directStatement pattern binding =
          some (importStatement binding.isTypeOnly (directClause pattern binding) path)) ∧
    ∀ template base other path path', placeholder <:+: template → Filled template base path →
      Filled template other path' → (path = path' ↔ base = other) := by
  refine ⟨exists_routes hr _, ?_, ?_⟩
  · intro template base h
    have hfilled := fill_filled template base
    refine ⟨fill template base, hfilled, fun other ho => hfilled.unique ho, ?_⟩
    rw [directStatement_eq, h.directPath_eq, Option.map_some]
  · intro template base other path path' hp hb ho
    exact hb.eq_iff ho hp

/-- The names that end in `Type` are named by a function, in a template of their own. -/
def nestedExports : NamedExports where
  suffixes := ["Type".toList]
  customPattern := some ("t/".toList ++ placeholder)
  transform := some fun name suffix => some (name ++ '-' :: suffix)

/-- The first placeholder of the template stands behind a brace that is no part of it. -/
def nestedPattern : BarrelPattern where
  barrel := ['l']
  transformPattern := "l/\x7b".toList ++ placeholder ++ '/' :: placeholder
  transformImportName := some .camelCase
  namedExports := some nestedExports

theorem nestedPattern_returnsNormally : nestedPattern.ReturnsNormally := by
  refine ⟨fun transform ht => by simp [nestedPattern] at ht, fun exports transform he ht => ?_⟩
  obtain rfl := Option.some.inj he
  obtain rfl := Option.some.inj ht
  exact fun name suffix => rfl

theorem nestedName_fills : nestedPattern.ReturnsNormally ∧
    nestedPattern.Routes ('a' :: placeholder) nestedPattern.transformPattern
      ('a' :: placeholder) ∧
    directStatement nestedPattern ⟨'a' :: placeholder, ['a'], false⟩ =
      some (importStatement false ['a']
        ("l/\x7ba".toList ++ placeholder ++ '/' :: placeholder)) ∧
    nestedPattern.Routes "BType".toList ("t/".toList ++ placeholder) "BType-Type".toList ∧
    directStatement nestedPattern ⟨"BType".toList, ['B'], true⟩ =
      some "import type \x7b B \x7d from \"t/BType-Type\";".toList ∧
    (fill nestedPattern.transformPattern ['a'] = fill nestedPattern.transformPattern ['b'] ↔
      ['a'] = ['b']) := by
  have hnone : nestedPattern.HasNoSuffix ('a' :: placeholder) := by
    intro exports he suffix hm
    obtain rfl := Option.some.inj he
    obtain rfl := List.mem_singleton.mp hm
    decide
  have hwhole : nestedPattern.Routes ('a' :: placeholder) nestedPattern.transformPattern
      ('a' :: placeholder) := .whole hnone (by decide)
  have hsuffix : nestedPattern.HasSuffix nestedExports "BType".toList ['B'] "Type".toList :=
    ⟨rfl, ⟨[], [], rfl, by decide, nofun⟩, rfl⟩
  have hcalled : nestedPattern.Routes "BType".toList ("t/".toList ++ placeholder)
      "BType-Type".toList := .called hsuffix rfl rfl
  obtain ⟨-, hpaths, hsame⟩ :=
    directStatement_fills nestedPattern_returnsNormally ⟨'a' :: placeholder, ['a'], false⟩
  obtain ⟨-, hpaths', -⟩ :=
    directStatement_fills nestedPattern_returnsNormally ⟨"BType".toList, ['B'], true⟩
  obtain ⟨path, -, hunique, hstatement⟩ := hpaths _ _ hwhole
  obtain ⟨path', -, hunique', hstatement'⟩ := hpaths' _ _ hcalled
  obtain rfl := hunique _ (fill_filled _ _)
  obtain rfl := hunique' _ (fill_filled _ _)
  refine ⟨nestedPattern_returnsNormally, hwhole, ?_, hcalled, ?_, ?_⟩
  · rw [hstatement]
    decide +kernel
  · rw [hstatement']
    decide +kernel
  · exact hsame _ _ _ _ _ ⟨_, _, rfl⟩ (fill_filled _ _) (fill_filled _ _)

end

end DirectImports
