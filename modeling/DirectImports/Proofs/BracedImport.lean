import DirectImports.Proofs.Written

/-! The direct import of a name that keeps its braces because of its suffix. It imports the local
name, which is the name that the barrel exports unless the binding has an alias. -/

namespace DirectImports

theorem namedMatch?_of_suffix {pattern : BarrelPattern} {exports : NamedExports}
    {name suffix : Text} (he : pattern.namedExports = some exports)
    (hs : exports.suffix? name = some suffix) :
    pattern.namedMatch? name = some (exports, suffix) :=
  namedMatch?_eq_some_iff.mpr ⟨he, hs⟩

theorem importDeclarations_statement {target text : Text} {declaration : ImportDeclaration}
    (h : IsStatement (Language.ofPath target).typescript text declaration) :
    ∃ found, importDeclarations target text = .ok [found] ∧
      found.imported = declaration.imported := by
  have hall : Statements.AreWritten (Language.ofPath target).typescript [(text, declaration)] :=
    List.forall_mem_singleton.mpr h
  obtain ⟨found, hread, himported⟩ := importDeclarations_statements (List.cons_ne_nil _ _) hall
  have htext : joinWith ['\n'] (Statements.texts [(text, declaration)]) = text := by
    simp [joinWith, Statements.texts]
  rw [htext] at hread
  obtain ⟨only, rfl, honly⟩ := List.map_eq_singleton_iff.mp himported
  exact ⟨only, hread, honly⟩

/-- A name with a suffix is imported in braces, by its local name alone. This is the name that the
barrel exports if the binding has no alias, and only then. -/
theorem directStatement_braced {pattern : BarrelPattern} {binding : NamedBinding}
    {exports : NamedExports} {suffix target : Text} (hp : pattern.ReturnsNormally)
    (he : pattern.namedExports = some exports)
    (hs : exports.suffix? binding.importedName = some suffix)
    (hname : isPlainWord binding.localName = true)
    (hq : ∀ path ∈ pattern.namedPath exports binding.importedName suffix, IsQuotable path)
    (ht : binding.isTypeOnly = true → (Language.ofPath target).typescript = true) :
    ∃ path text found specifier,
      pattern.namedPath exports binding.importedName suffix = some path ∧
      directStatement pattern binding = some text ∧
      importDeclarations target text = .ok [found] ∧
      found.imported = ⟨some path, [specifier], binding.isTypeOnly⟩ ∧
      specifier = .named binding.localName binding.localName false ∧
      (specifier.importedName = binding.importedName ↔
        binding.localName = binding.importedName) := by
  have hmatch := namedMatch?_of_suffix he hs
  have hdirect : pattern.directPath binding.importedName =
      pattern.namedPath exports binding.importedName suffix := by
    rw [BarrelPattern.directPath, hmatch]
  obtain ⟨path, hpath⟩ := Option.isSome_iff_exists.mp
    (directPath_isSome hp binding.importedName)
  have hwritable : binding.IsWritable pattern (Language.ofPath target).typescript := by
    refine ⟨ht, ?_, by rwa [hdirect]⟩
    rw [NamedBinding.IsNameable, hmatch]
    exact hname
  have htext : ∃ text, directStatement pattern binding = some text := by
    rw [directStatement_eq, hpath]
    exact ⟨_, rfl⟩
  obtain ⟨text, htext⟩ := htext
  obtain ⟨declaration, hstatement, himported⟩ := directStatement_written htext hwritable
  obtain ⟨found, hread, hfound⟩ := importDeclarations_statement hstatement
  have hspecifier : directSpecifier pattern binding =
      .named binding.localName binding.localName false := by
    rw [directSpecifier, hmatch]
    rfl
  rw [directImported, hpath, hspecifier] at himported
  refine ⟨path, text, found, _, hdirect ▸ hpath, htext, hread, ?_, rfl, Iff.rfl⟩
  rw [hfound]
  exact (Option.some.inj himported).symm

/-- A type with an alias, and one without. -/
def aliasedBinding : NamedBinding :=
  ⟨"ButtonType".toList, ['B'], true⟩

theorem aliasedBinding_braced : ∃ path text found specifier,
    suffixedPattern.namedPath ⟨["Type".toList], none, none⟩ aliasedBinding.importedName
      "Type".toList = some path ∧
    directStatement suffixedPattern aliasedBinding = some text ∧
    importDeclarations "t.ts".toList text = .ok [found] ∧
    found.imported = ⟨some path, [specifier], true⟩ ∧ specifier = .named ['B'] ['B'] false ∧
    (specifier.importedName = aliasedBinding.importedName ↔ ['B'] = aliasedBinding.importedName) :=
  directStatement_braced suffixedPattern_hasNoFunctions.returnsNormally rfl (by decide +kernel)
    (by decide) (by decide +kernel) (fun _ => by decide)

/-- The import of an alias in braces is not the import of the name that the barrel exports, even if
both are plain names. -/
theorem aliasedBinding_importsAlias :
    IsBindingName aliasedBinding.importedName ∧ IsBindingName aliasedBinding.localName ∧
      suffixedPattern.namedMatch? aliasedBinding.importedName =
        some (⟨["Type".toList], none, none⟩, "Type".toList) ∧
      ∃ text found, directStatement suffixedPattern aliasedBinding = some text ∧
        importDeclarations "t.ts".toList text = .ok [found] ∧
        found.source = some "l/button".toList ∧
        found.specifiers = [.named ['B'] ['B'] false] ∧ ['B'] ≠ aliasedBinding.importedName := by
  have htext : directStatement suffixedPattern aliasedBinding =
      some "import type { B } from \"l/button\";".toList := by
    decide +kernel
  have hp : pieces? (Language.ofPath "t.ts".toList) "import type { B } from \"l/button\";".toList =
      some [.gap [], .gap [], .declaration "import type { B } from \"l/button\";".toList
        ⟨⟨0, 34⟩, some "l/button".toList, [.named ['B'] ['B'] false], true⟩, .gap []] := by
    decide +kernel
  have hmatch : suffixedPattern.namedMatch? aliasedBinding.importedName =
      some (⟨["Type".toList], none, none⟩, "Type".toList) :=
    namedMatch?_of_suffix rfl (by decide +kernel)
  exact ⟨by decide +kernel, by decide, hmatch, _, _, htext, importDeclarations_of_pieces hp, rfl,
    rfl, by decide⟩

end DirectImports
