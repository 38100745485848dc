import DirectImports.Proofs.DirectPath
import DirectImports.Proofs.Splice
import DirectImports.Notice

/-! What fixing does to the pieces of a text. The direct imports take the place of each declaration
that imports names from a barrel, and every other piece stays. -/

namespace DirectImports

theorem barrelOf?_eq_some {options : RuleOptions} {declaration : ImportDeclaration}
    {pattern : BarrelPattern} (h : options.barrelOf? declaration = some pattern) :
    declaration.source.bind options.match? = some pattern ∧
      declaration.specifiers.any Specifier.isNamed = true := by
  obtain ⟨source, hs, h⟩ := Option.bind_eq_some_iff.mp h
  obtain ⟨found, hm, h⟩ := Option.bind_eq_some_iff.mp h
  split at h
  next hn =>
    obtain rfl := Option.some.inj h
    exact ⟨by rw [hs]; exact hm, hn⟩
  next => simp at h

theorem handler_eq (options : RuleOptions) (declaration : ImportDeclaration) :
    options.handler declaration =
      match options.barrelOf? declaration with
      | none => some []
      | some pattern => (declaration.directStatements pattern).map fun statements =>
          [⟨declaration.span, barrelMessage,
            some ⟨declaration.span, joinWith ['\n'] statements⟩⟩] := by
  unfold RuleOptions.handler
  cases hb : options.barrelOf? declaration with
  | none => rfl
  | some pattern =>
    dsimp only
    rw [replacement_eq pattern (barrelOf?_eq_some hb).2, Option.map_map]
    rfl

theorem dispatch_handlers (options : RuleOptions) (declaration : ImportDeclaration) :
    dispatch options.handlers declaration = options.handler declaration := by
  simp only [dispatch, RuleOptions.handlers, List.mapM_cons, List.mapM_nil]
  cases options.handler declaration with
  | none => rfl
  | some found => simp

theorem dispatchAll_cons (options : RuleOptions) (declaration : ImportDeclaration)
    (declarations : List ImportDeclaration) :
    dispatchAll options.handlers (declaration :: declarations) =
      (options.handler declaration).bind fun first =>
        (dispatchAll options.handlers declarations).map fun later => first ++ later := by
  simp only [dispatchAll, List.mapM_cons, dispatch_handlers]
  cases options.handler declaration with
  | none => rfl
  | some first =>
    cases declarations.mapM (dispatch options.handlers) with
    | none => rfl
    | some later => rfl

def Piece.fixed? (options : RuleOptions) : Piece → Option Text
  | gap text => some text
  | statement text => some text
  | declaration text found =>
    match options.barrelOf? found with
    | none => some text
    | some pattern => (found.directStatements pattern).map (joinWith ['\n'])

def fixedText? (options : RuleOptions) : List Piece → Option Text
  | [] => some []
  | piece :: pieces => do return (← piece.fixed? options) ++ (← fixedText? options pieces)

theorem fixedText?_cons {options : RuleOptions} {piece : Piece} {pieces : List Piece}
    {fixed : Text} (h : fixedText? options (piece :: pieces) = some fixed) :
    ∃ first later, piece.fixed? options = some first ∧ fixedText? options pieces = some later ∧
      fixed = first ++ later := by
  obtain ⟨first, hf, h⟩ := Option.bind_eq_some_iff.mp h
  obtain ⟨later, hl, h⟩ := Option.bind_eq_some_iff.mp h
  exact ⟨first, later, hf, hl, (Option.some.inj h).symm⟩

theorem fixedText?_gap {options : RuleOptions} {gap fixed : Text} {pieces : List Piece}
    (h : fixedText? options (.gap gap :: pieces) = some fixed) :
    ∃ later, fixedText? options pieces = some later ∧ fixed = gap ++ later := by
  obtain ⟨first, later, hf, hl, rfl⟩ := fixedText?_cons h
  obtain rfl := Option.some.inj hf
  exact ⟨later, hl, rfl⟩

theorem fixedText?_last {options : RuleOptions} {gap fixed : Text}
    (h : fixedText? options [.gap gap] = some fixed) : fixed = gap := by
  obtain ⟨later, hl, rfl⟩ := fixedText?_gap h
  obtain rfl := Option.some.inj hl
  exact List.append_nil gap

theorem fixedText?_statement {options : RuleOptions} {gap text fixed : Text}
    {pieces : List Piece}
    (h : fixedText? options (.gap gap :: .statement text :: pieces) = some fixed) :
    ∃ later, fixedText? options pieces = some later ∧ fixed = gap ++ (text ++ later) := by
  obtain ⟨behind, hbehind, rfl⟩ := fixedText?_gap h
  obtain ⟨first, later, hf, hl, rfl⟩ := fixedText?_cons hbehind
  obtain rfl := Option.some.inj hf
  exact ⟨later, hl, rfl⟩

/-- A declaration stays as it is unless it imports names from a barrel. -/
theorem fixedText?_declaration {options : RuleOptions} {gap text fixed : Text}
    {declaration : ImportDeclaration} {pieces : List Piece}
    (h : fixedText? options (.gap gap :: .declaration text declaration :: pieces) = some fixed) :
    ∃ later, fixedText? options pieces = some later ∧
      ((options.barrelOf? declaration = none ∧ fixed = gap ++ (text ++ later)) ∨
        ∃ pattern texts, options.barrelOf? declaration = some pattern ∧
          declaration.directStatements pattern = some texts ∧
          fixed = gap ++ (joinWith ['\n'] texts ++ later)) := by
  obtain ⟨behind, hbehind, rfl⟩ := fixedText?_gap h
  obtain ⟨first, later, hf, hl, rfl⟩ := fixedText?_cons hbehind
  refine ⟨later, hl, ?_⟩
  unfold Piece.fixed? at hf
  cases hb : options.barrelOf? declaration with
  | none =>
    simp only [hb] at hf
    obtain rfl := Option.some.inj hf
    exact .inl ⟨rfl, rfl⟩
  | some pattern =>
    simp only [hb] at hf
    obtain ⟨texts, ht, rfl⟩ := Option.map_eq_some_iff.mp hf
    exact .inr ⟨pattern, texts, rfl, ht, rfl⟩

def Diagnostic.IsFixed (diagnostic : Diagnostic) : Prop :=
  ∃ replacement, diagnostic.fix = some ⟨diagnostic.span, replacement⟩

/-- The declarations among pieces have the spans of their pieces. -/
def FitsPieces (pieces : List Piece) : Prop :=
  ∀ text declaration, Piece.declaration text declaration ∈ pieces →
    declaration.span = ⟨0, byteLength text⟩

theorem spliced_of_pieces {options : RuleOptions} {offset : Nat} {pieces : List Piece}
    {diagnostics : List Diagnostic} (hf : FitsPieces pieces)
    (h : dispatchAll options.handlers (declarationsFrom offset pieces) = some diagnostics) :
    (∀ diagnostic ∈ diagnostics, diagnostic.IsFixed) ∧
      ∃ fixed, fixedText? options pieces = some fixed ∧
        Spliced offset (textOf pieces) (fixesOf diagnostics) fixed := by
  induction pieces generalizing offset diagnostics with
  | nil =>
    obtain rfl : [] = diagnostics := Option.some.inj h
    exact ⟨by simp, [], rfl, .rest offset []⟩
  | cons piece pieces ih =>
    have hf' : FitsPieces pieces := fun text declaration hm => hf text declaration (.tail _ hm)
    cases piece with
    | gap text | statement text =>
      obtain ⟨hfix, fixed, hfixed, hs⟩ := ih hf' h
      exact ⟨hfix, text ++ fixed, by simp [fixedText?, Piece.fixed?, hfixed], hs.append text⟩
    | declaration text declaration =>
      have hspan := hf text declaration (.head _)
      simp only [declarationsFrom, dispatchAll_cons, Option.bind_eq_some_iff,
        Option.map_eq_some_iff] at h
      obtain ⟨first, hfirst, later, hlater, rfl⟩ := h
      obtain ⟨hfix, fixed, hfixed, hs⟩ := ih hf' hlater
      rw [handler_eq] at hfirst
      have hbarrel : options.barrelOf? (declaration.shift offset) =
        options.barrelOf? declaration := rfl
      rw [hbarrel] at hfirst
      cases hb : options.barrelOf? declaration with
      | none =>
        rw [hb] at hfirst
        obtain rfl := Option.some.inj hfirst
        exact ⟨hfix, text ++ fixed, by simp [fixedText?, Piece.fixed?, hb, hfixed],
          hs.append text⟩
      | some pattern =>
        rw [hb] at hfirst
        obtain ⟨statements, hst, rfl⟩ := Option.map_eq_some_iff.mp hfirst
        have hst' : declaration.directStatements pattern = some statements := hst
        refine ⟨?_, joinWith ['\n'] statements ++ fixed,
          by simp [fixedText?, Piece.fixed?, hb, hst', hfixed], ?_⟩
        · intro diagnostic hd
          rcases List.mem_cons.mp hd with rfl | hd
          · exact ⟨_, rfl⟩
          · exact hfix diagnostic hd
        · have hspan' : (declaration.shift offset).span =
              ⟨offset + byteLength [], offset + byteLength [] + byteLength text⟩ := by
            simp [ImportDeclaration.shift, Span.shift, hspan, byteLength]
          have hstop : (declaration.shift offset).span.stop = offset + byteLength text := by
            rw [hspan']
            rfl
          have hsplice : Spliced offset ([] ++ (text ++ textOf pieces))
              (⟨(declaration.shift offset).span, joinWith ['\n'] statements⟩ :: fixesOf later)
              ([] ++ (joinWith ['\n'] statements ++ fixed)) :=
            .fix hspan' (by rw [hstop]; exact hs)
          exact hsplice

theorem readImport_span {typescript : Bool} {text behind : Text}
    {declaration : ImportDeclaration}
    (h : readImport typescript (text ++ behind) = some (declaration, behind)) :
    declaration.span = ⟨0, byteLength text⟩ := by
  obtain ⟨_, _, _, _, _, rfl⟩ := readImport_eq h
  rw [textBefore_append]

theorem Reads.fits {language : Language} {text : Text} {pieces : List Piece}
    (h : Reads language text pieces) : FitsPieces pieces := by
  induction h with
  | finish => simp [FitsPieces]
  | @declaration gap text behind declaration pieces hg hb later ih =>
    intro text' declaration' hm
    simp only [List.mem_cons, reduceCtorEq, false_or, Piece.declaration.injEq] at hm
    rcases hm with ⟨rfl, rfl⟩ | hm
    · exact readImport_span hb
    · exact ih text' declaration' hm
  | statement _ _ _ ih =>
    intro text' declaration' hm
    simp only [List.mem_cons, reduceCtorEq, false_or] at hm
    exact ih text' declaration' hm

theorem pieces?_fits {language : Language} {text : Text} {pieces : List Piece}
    (h : pieces? language text = some pieces) : FitsPieces pieces := by
  obtain ⟨line, rest, later, -, -, rfl, hl⟩ := pieces?_eq_some_iff.mp h
  intro text' declaration' hm
  simp only [List.mem_cons, reduceCtorEq, false_or] at hm
  exact hl.fits text' declaration' hm

theorem importDeclarations_eq_ok {path source : Text} {declarations : List ImportDeclaration}
    (h : importDeclarations path source = .ok declarations) :
    ∃ pieces, pieces? (Language.ofPath path) source = some pieces ∧
      declarations = declarationsFrom 0 pieces := by
  unfold importDeclarations importDeclarations? at h
  cases hp : pieces? (Language.ofPath path) source with
  | none =>
    rw [hp] at h
    simp [throw, throwThe, MonadExceptOf.throw] at h
  | some pieces =>
    rw [hp] at h
    exact ⟨pieces, rfl, (Except.ok.inj h).symm⟩

theorem importDeclarations_of_pieces {path source : Text} {pieces : List Piece}
    (h : pieces? (Language.ofPath path) source = some pieces) :
    importDeclarations path source = .ok (declarationsFrom 0 pieces) := by
  simp [importDeclarations, importDeclarations?, h]
  rfl

theorem importDeclarations_of_unread {path source : Text}
    (h : pieces? (Language.ofPath path) source = none) :
    importDeclarations path source = .error (.unparsable path 1) := by
  simp only [importDeclarations, importDeclarations?, h]
  rfl

theorem lintSource_eq_ok_iff {options : RuleOptions} {path source : Text}
    {diagnostics : List Diagnostic} :
    lintSource options path source = .ok diagnostics ↔
      ∃ declarations, importDeclarations path source = .ok declarations ∧
        dispatchAll options.handlers declarations = some diagnostics := by
  unfold lintSource
  cases importDeclarations path source with
  | error failure => simp [bind, Except.bind]
  | ok declarations =>
    cases hd : dispatchAll options.handlers declarations with
    | none => simp [bind, Except.bind, hd, throw, throwThe, MonadExceptOf.throw]
    | some found => simp [bind, Except.bind, hd, pure, Except.pure]

theorem fixSource_of_lint {options : RuleOptions} {path source : Text} {pieces : List Piece}
    {diagnostics : List Diagnostic} (hp : pieces? (Language.ofPath path) source = some pieces)
    (hl : lintSource options path source = .ok diagnostics) :
    (∀ diagnostic ∈ diagnostics, diagnostic.IsFixed) ∧
      ∃ fixed, fixedText? options pieces = some fixed ∧
        fixSource options path source = .ok fixed ∧
        Spliced 0 source (fixesOf diagnostics) fixed := by
  obtain ⟨declarations, hd, hdispatch⟩ := lintSource_eq_ok_iff.mp hl
  rw [importDeclarations_of_pieces hp] at hd
  obtain rfl := Except.ok.inj hd
  obtain ⟨hfix, fixed, hfixed, hs⟩ := spliced_of_pieces (pieces?_fits hp) hdispatch
  rw [pieces?_text hp] at hs
  refine ⟨hfix, fixed, hfixed, ?_, hs⟩
  simp only [fixSource, hl, bind, Except.bind, hs.applyFixes_eq]
  rfl

theorem barrelOf?_mem {options : RuleOptions} {declaration : ImportDeclaration}
    {pattern : BarrelPattern} (h : options.barrelOf? declaration = some pattern) :
    pattern ∈ options.patterns := by
  obtain ⟨source, -, hm⟩ := Option.bind_eq_some_iff.mp (barrelOf?_eq_some h).1
  exact List.mem_of_find?_eq_some hm

theorem dispatchAll_isSome {options : RuleOptions} (h : options.ReturnsNormally)
    (declarations : List ImportDeclaration) :
    (dispatchAll options.handlers declarations).isSome = true := by
  induction declarations with
  | nil => rfl
  | cons declaration declarations ih =>
    obtain ⟨later, hl⟩ := Option.isSome_iff_exists.mp ih
    rw [dispatchAll_cons, handler_eq, hl]
    cases hb : options.barrelOf? declaration with
    | none => rfl
    | some pattern =>
      have hp := h pattern (barrelOf?_mem hb)
      obtain ⟨statements, hs⟩ := Option.isSome_iff_exists.mp
        (directStatements_isSome hp declaration)
      simp [hs]

theorem lintSource_returns {options : RuleOptions} (h : options.ReturnsNormally)
    {path source : Text} {declarations : List ImportDeclaration}
    (hd : importDeclarations path source = .ok declarations) :
    ∃ diagnostics, lintSource options path source = .ok diagnostics := by
  obtain ⟨diagnostics, hdispatch⟩ := Option.isSome_iff_exists.mp (dispatchAll_isSome h declarations)
  exact ⟨diagnostics, lintSource_eq_ok_iff.mpr ⟨declarations, hd, hdispatch⟩⟩

theorem fixSource_of_fixedText {options : RuleOptions} (h : options.ReturnsNormally)
    {path source fixed : Text}
    (hf : (pieces? (Language.ofPath path) source).bind (fixedText? options) = some fixed) :
    ∃ diagnostics, lintSource options path source = .ok diagnostics ∧
      fixSource options path source = .ok fixed := by
  obtain ⟨pieces, hp, hf⟩ := Option.bind_eq_some_iff.mp hf
  obtain ⟨diagnostics, hl⟩ := lintSource_returns h (importDeclarations_of_pieces hp)
  obtain ⟨-, _, hf', hfixed, -⟩ := fixSource_of_lint hp hl
  obtain rfl := Option.some.inj (hf.symm.trans hf')
  exact ⟨diagnostics, hl, hfixed⟩

/-- Fixing puts the replacement of each diagnostic in the place of its span. No fix is skipped, and
the text before, between and behind the spans stays. -/
theorem fixSource_splices {options : RuleOptions} {path source : Text}
    {declarations : List ImportDeclaration} (hn : options.ReturnsNormally)
    (hd : importDeclarations path source = .ok declarations) :
    ∃ diagnostics fixed, lintSource options path source = .ok diagnostics ∧
      fixSource options path source = .ok fixed ∧
      fixNotices (fixesOf diagnostics) = [] ∧
      (∀ diagnostic ∈ diagnostics, diagnostic.IsFixed) ∧
      Spliced 0 source (fixesOf diagnostics) fixed := by
  obtain ⟨pieces, hp, -⟩ := importDeclarations_eq_ok hd
  obtain ⟨diagnostics, hl⟩ := lintSource_returns hn hd
  obtain ⟨hfix, fixed, -, hfixed, hs⟩ := fixSource_of_lint hp hl
  exact ⟨diagnostics, fixed, hl, hfixed, by simp [fixNotices, hs.select_eq], hfix, hs⟩

/-- The direct imports of `l` are named by a function. -/
def underscoredOptions : RuleOptions where
  patterns := [{
    barrel := ['l']
    transformPattern := "l/\x7b\x7bimportName\x7d\x7d".toList
    transformImportName := some (.custom fun name => some ('_' :: name))
    namedExports := none }]

theorem underscoredOptions_returnsNormally : underscoredOptions.ReturnsNormally := by
  intro pattern hp
  obtain rfl := List.mem_singleton.mp hp
  refine ⟨fun transform ht name => ?_, fun exports transform he => by simp at he⟩
  simp only [Option.some.injEq, NameTransform.custom.injEq] at ht
  subst ht
  rfl

def mixedSource : Text :=
  "f()\nimport d, {A as b, BType} from 'l'\n/**/g()".toList

def mixedDeclaration : ImportDeclaration where
  span := ⟨4, 38⟩
  source := some ['l']
  specifiers := [.byDefault ['d'], .named ['A'] ['b'] false,
    .named "BType".toList "BType".toList false]
  isTypeOnly := false

theorem mixedSource_read :
    importDeclarations "t.ts".toList mixedSource = .ok [mixedDeclaration] := by
  have hp : pieces? (Language.ofPath "t.ts".toList) mixedSource = some [.gap [], .gap [],
      .statement "f()\n".toList, .gap [],
      .declaration "import d, {A as b, BType} from 'l'".toList
        { mixedDeclaration with span := ⟨0, 34⟩ },
      .gap "\n/**/".toList, .statement "g()".toList, .gap []] := by
    decide +kernel
  exact importDeclarations_of_pieces hp

theorem mixedSource_splices : ∃ diagnostics fixed,
    lintSource underscoredOptions "t.ts".toList mixedSource = .ok diagnostics ∧
      fixSource underscoredOptions "t.ts".toList mixedSource = .ok fixed ∧
      fixNotices (fixesOf diagnostics) = [] ∧
      (∀ diagnostic ∈ diagnostics, diagnostic.IsFixed) ∧
      Spliced 0 mixedSource (fixesOf diagnostics) fixed :=
  fixSource_splices underscoredOptions_returnsNormally mixedSource_read

end DirectImports
