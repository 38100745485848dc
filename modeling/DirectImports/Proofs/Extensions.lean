import DirectImports.Proofs.Convergence
import DirectImports.Proofs.StatementStarts

/-! What the extension of a file changes. JavaScript gets nothing that is for types only, and what
both languages begin at the same places has the same fixes. -/

namespace DirectImports

section Types

def Specifier.withoutType : Specifier → Specifier
  | .named importedName localName _ => .named importedName localName false
  | specifier => specifier

/-- A declaration with all that it says of types taken out. -/
def ImportDeclaration.withoutTypes (declaration : ImportDeclaration) : ImportDeclaration :=
  { declaration with
    specifiers := declaration.specifiers.map Specifier.withoutType
    isTypeOnly := false }

structure ImportDeclaration.IsUntyped (declaration : ImportDeclaration) : Prop where
  whole : declaration.isTypeOnly = false
  each : ∀ specifier ∈ declaration.specifiers, specifier.isType = false

theorem Specifier.withoutType_eq {specifier : Specifier} (h : specifier.isType = false) :
    specifier.withoutType = specifier := by
  cases specifier with
  | named importedName localName isType =>
    obtain rfl : isType = false := h
    rfl
  | byDefault => rfl
  | entire => rfl

theorem ImportDeclaration.IsUntyped.withoutTypes_eq {declaration : ImportDeclaration}
    (h : declaration.IsUntyped) : declaration.withoutTypes = declaration := by
  have hspecifiers : declaration.specifiers.map Specifier.withoutType = declaration.specifiers :=
    (List.map_congr_left fun specifier hs => Specifier.withoutType_eq (h.each specifier hs)).trans
      (List.map_id _)
  rw [ImportDeclaration.withoutTypes, hspecifiers, ← h.whole]

variable {options : RuleOptions} {path path' source : Text}
  {declarations : List ImportDeclaration} {diagnostics : List Diagnostic}

theorem not_typescript (h : ∀ extension ∈ extension? path, extension ∉ typescriptExtensions) :
    (Language.ofPath path).typescript = false := by
  rw [Language.ofPath, Option.any_eq_false]
  intro extension he
  simpa using h extension he

theorem importDeclarations_untyped (ht : (Language.ofPath path).typescript = false)
    (h : importDeclarations path source = .ok declarations) :
    ∀ declaration ∈ declarations, declaration.IsUntyped := by
  intro declaration hd
  have hs := importDeclarations_shape h declaration hd
  rw [ht] at hs
  constructor
  case whole => exact eq_false_of_ne_true fun htype => absurd (hs.types htype) Bool.false_ne_true
  case each =>
    intro specifier hm
    exact eq_false_of_ne_true fun htype => absurd (hs.isType specifier hm htype) Bool.false_ne_true

theorem mem_dispatchAll (h : dispatchAll options.handlers declarations = some diagnostics) :
    ∀ diagnostic ∈ diagnostics, ∃ declaration ∈ declarations, ∃ pattern statements,
      options.barrelOf? declaration = some pattern ∧
      declaration.directStatements pattern = some statements ∧
      diagnostic.fix = some ⟨declaration.span, joinWith ['\n'] statements⟩ := by
  induction declarations generalizing diagnostics with
  | nil =>
    obtain rfl : [] = diagnostics := Option.some.inj h
    nofun
  | cons declaration declarations ih =>
    rw [dispatchAll_cons, Option.bind_eq_some_iff] at h
    obtain ⟨first, hfirst, h⟩ := h
    obtain ⟨later, hlater, rfl⟩ := Option.map_eq_some_iff.mp h
    have hlater' := ih hlater
    refine List.forall_mem_append.mpr ⟨?_, fun diagnostic hm => ?_⟩
    · rw [handler_eq] at hfirst
      cases hb : options.barrelOf? declaration with
      | none =>
        rw [hb] at hfirst
        obtain rfl := Option.some.inj hfirst
        nofun
      | some pattern =>
        rw [hb] at hfirst
        obtain ⟨statements, hs, rfl⟩ := Option.map_eq_some_iff.mp hfirst
        exact List.forall_mem_singleton.mpr
          ⟨declaration, .head _, pattern, statements, hb, hs, rfl⟩
    · obtain ⟨other, ho, hreport⟩ := hlater' diagnostic hm
      exact ⟨other, .tail _ ho, hreport⟩

/-- A fix that has nothing for types: it is that of the declaration without its types, and if names
and paths can be pasted, its statements are imports of JavaScript. -/
structure IsUntypedFix (options : RuleOptions) (declaration : ImportDeclaration)
    (fix : Fix) : Prop where
  span : fix.span = declaration.span
  replacement : ∃ pattern, options.barrelOf? declaration = some pattern ∧
    declaration.withoutTypes.replacement pattern = some (some fix.replacement) ∧
    (declaration.IsWritable pattern → ∃ statements : Statements,
      joinWith ['\n'] statements.texts = fix.replacement ∧ statements.AreWritten false)

theorem isUntypedFix_of_lint (ht : (Language.ofPath path).typescript = false)
    (hd : importDeclarations path source = .ok declarations)
    (hl : lintSource options path source = .ok diagnostics) :
    ∀ diagnostic ∈ diagnostics, ∃ declaration ∈ declarations, ∃ fix,
      diagnostic.fix = some fix ∧ IsUntypedFix options declaration fix := by
  intro diagnostic hm
  obtain ⟨_, hd', hdispatch⟩ := lintSource_eq_ok_iff.mp hl
  obtain rfl := Except.ok.inj (hd.symm.trans hd')
  obtain ⟨declaration, hmem, pattern, statements, hb, hs, hfix⟩ :=
    mem_dispatchAll hdispatch diagnostic hm
  have huntyped := importDeclarations_untyped ht hd declaration hmem
  have hshape := importDeclarations_shape hd declaration hmem
  rw [ht] at hshape
  have hnamed := (barrelOf?_eq_some hb).2
  refine ⟨declaration, hmem, _, hfix, rfl, pattern, hb, ?_, fun hw => ?_⟩
  · rw [huntyped.withoutTypes_eq, replacement_eq pattern hnamed, hs]
    rfl
  · obtain ⟨written, _, -, htexts, hwritten, -, -⟩ := directStatements_eq hshape hnamed hw hs
    exact ⟨written, by rw [htexts], hwritten⟩

theorem fixSource_congr (hl : lintSource options path source = .ok diagnostics)
    (hl' : lintSource options path' source = .ok diagnostics) :
    fixSource options path' source = fixSource options path source := by
  rw [fixSource, fixSource, hl, hl']

end Types

/-- In a source that is no TypeScript nothing is for types only, and nothing for types is written.
Two paths that a source can be read under have the same declarations, diagnostics and fixed text if
each language begins a statement or a declaration where the other one finds a declaration. -/
theorem extension_changes_boundaries {options : RuleOptions} (h : options.ReturnsNormally) :
    (∀ path source declarations, (∀ extension ∈ extension? path, extension ∉ typescriptExtensions) →
      importDeclarations path source = .ok declarations →
      (∀ declaration ∈ declarations, declaration.IsUntyped) ∧
      ∃ diagnostics, lintSource options path source = .ok diagnostics ∧
        ∀ diagnostic ∈ diagnostics, ∃ declaration ∈ declarations, ∃ fix,
          diagnostic.fix = some fix ∧ IsUntypedFix options declaration fix) ∧
    ∀ path path' source declarations declarations',
      importDeclarations path source = .ok declarations →
      importDeclarations path' source = .ok declarations' →
      (declarations = declarations' ↔
        (∀ declaration ∈ declarations, declaration.span.start ∈ statementStarts path' source) ∧
        ∀ declaration ∈ declarations', declaration.span.start ∈ statementStarts path source) ∧
      (declarations = declarations' → ∃ diagnostics fixed,
        lintSource options path source = .ok diagnostics ∧
        lintSource options path' source = .ok diagnostics ∧
        fixSource options path source = .ok fixed ∧
        fixSource options path' source = .ok fixed) := by
  constructor
  · intro path source declarations hpath hd
    have ht := not_typescript hpath
    obtain ⟨diagnostics, hl⟩ := lintSource_returns h hd
    exact ⟨importDeclarations_untyped ht hd, diagnostics, hl, isUntypedFix_of_lint ht hd hl⟩
  · intro path path' source declarations declarations' hd hd'
    refine ⟨declarations_eq_iff hd hd', ?_⟩
    rintro rfl
    obtain ⟨pieces, hp, -⟩ := importDeclarations_eq_ok hd
    obtain ⟨diagnostics, hl⟩ := lintSource_returns h hd
    obtain ⟨_, hd'', hdispatch⟩ := lintSource_eq_ok_iff.mp hl
    obtain rfl := Except.ok.inj (hd.symm.trans hd'')
    have hl' : lintSource options path' source = .ok diagnostics :=
      lintSource_eq_ok_iff.mpr ⟨_, hd', hdispatch⟩
    obtain ⟨-, fixed, -, hfixed, -⟩ := fixSource_of_lint hp hl
    exact ⟨diagnostics, fixed, hl, hl', hfixed, (fixSource_congr hl hl').trans hfixed⟩

theorem mixedSource_read_untyped :
    importDeclarations "t.js".toList mixedSource = .ok [mixedDeclaration] := by
  have hp : pieces? (Language.ofPath "t.js".toList) mixedSource = some [.gap [], .gap [],
      .statement "f()\n".toList, .gap [],
      .declaration "import d, {A as b, BType} from 'l'".toList
        { mixedDeclaration with span := ⟨0, 34⟩ },
      .gap "\n/**/".toList, .statement "g()".toList, .gap []] := by
    decide +kernel
  exact importDeclarations_of_pieces hp

theorem mixedSource_fixed_alike : ∃ diagnostics fixed,
    (∀ declaration ∈ [mixedDeclaration], declaration.IsUntyped) ∧
    (∀ diagnostic ∈ diagnostics, ∃ declaration ∈ [mixedDeclaration], ∃ fix,
      diagnostic.fix = some fix ∧ IsUntypedFix suffixedOptions declaration fix) ∧
    mixedDeclaration.span.start ∈ statementStarts "t.js".toList mixedSource ∧
    lintSource suffixedOptions "t.js".toList mixedSource = .ok diagnostics ∧
    lintSource suffixedOptions "t.ts".toList mixedSource = .ok diagnostics ∧
    fixSource suffixedOptions "t.js".toList mixedSource = .ok fixed ∧
    fixSource suffixedOptions "t.ts".toList mixedSource = .ok fixed := by
  obtain ⟨hone, hboth⟩ :=
    extension_changes_boundaries suffixedOptions_hasNoFunctions.returnsNormally
  obtain ⟨huntyped, found, hfound, hfixes⟩ :=
    hone "t.js".toList mixedSource _ (by decide) mixedSource_read_untyped
  obtain ⟨hstarts, hsame⟩ := hboth _ _ _ _ _ mixedSource_read_untyped mixedSource_read
  obtain ⟨diagnostics, fixed, hl, hl', hf, hf'⟩ := hsame rfl
  obtain rfl := Except.ok.inj (hfound.symm.trans hl)
  exact ⟨found, fixed, huntyped, hfixes, (hstarts.mp rfl).2 _ (.head _), hl, hl', hf, hf'⟩

/-- A regular expression of JavaScript behind two comparisons. For TypeScript it is a division of
something with a type argument, and an import between two statements. -/
def dividedSource : Text :=
  "a<b>/1;import \x7bA\x7d from \"l\";1/g".toList

/-- The name of the import makes a modifier of its first word when it is pasted. -/
def modifyingSource : Text :=
  "import \x7b\"type X\"\x7d from \"l\"".toList

/-- The list of declarations may differ, and a fix may be one for types only. -/
theorem extension_changes_declarations :
    (∀ extension ∈ extension? "t.js".toList, extension ∉ typescriptExtensions) ∧
    (Language.ofPath "t.js".toList).jsx = (Language.ofPath "t.ts".toList).jsx ∧
    importDeclarations "t.js".toList dividedSource = .ok [] ∧
    (∃ declaration, importDeclarations "t.ts".toList dividedSource = .ok [declaration]) ∧
    suffixedOptions.HasNoFunctions ∧ ∃ fixed found,
      fixSource suffixedOptions "t.js".toList modifyingSource = .ok fixed ∧
      importDeclarations "t.js".toList fixed = .error (.unparsable "t.js".toList 1) ∧
      importDeclarations "t.ts".toList fixed = .ok [found] ∧ found.isTypeOnly = true := by
  have hregex : pieces? (Language.ofPath "t.js".toList) dividedSource =
      some [.gap [], .gap [], .statement dividedSource, .gap []] := by
    decide +kernel
  have hdivision : pieces? (Language.ofPath "t.ts".toList) dividedSource =
      some [.gap [], .gap [], .statement "a<b>/1;".toList, .gap [],
        .declaration "import \x7bA\x7d from \"l\";".toList
          ⟨⟨0, 20⟩, some ['l'], [.named ['A'] ['A'] false], false⟩,
        .gap [], .statement "1/g".toList, .gap []] := by
    decide +kernel
  have hfixed : (pieces? (Language.ofPath "t.js".toList) modifyingSource).bind
      (fixedText? suffixedOptions) = some "import type X from \"l/type x\";".toList := by
    decide +kernel
  have hbroken : pieces? (Language.ofPath "t.js".toList)
      "import type X from \"l/type x\";".toList = none := by
    decide +kernel
  have htyped : pieces? (Language.ofPath "t.ts".toList)
      "import type X from \"l/type x\";".toList = some [.gap [], .gap [],
        .declaration "import type X from \"l/type x\";".toList
          ⟨⟨0, 30⟩, some "l/type x".toList, [.byDefault ['X']], true⟩, .gap []] := by
    decide +kernel
  obtain ⟨-, -, hfix⟩ :=
    fixSource_of_fixedText suffixedOptions_hasNoFunctions.returnsNormally hfixed
  exact ⟨by decide, by decide, importDeclarations_of_pieces hregex,
    ⟨_, importDeclarations_of_pieces hdivision⟩, suffixedOptions_hasNoFunctions, _, _, hfix,
    importDeclarations_of_unread hbroken, importDeclarations_of_pieces htyped, rfl⟩

end DirectImports
