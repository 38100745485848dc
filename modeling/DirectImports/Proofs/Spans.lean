import DirectImports.Proofs.Agreement

/-! Where the import declarations of a source stand. Their spans lie behind each other, and the text
of each is a source of its own with this declaration alone. -/

namespace DirectImports

theorem endsAlike_nil (text : Text) : EndsAlike text [] :=
  ⟨fun _ => rfl, fun _ => rfl⟩

theorem readImport_alone {typescript : Bool} {text behind : Text}
    {declaration : ImportDeclaration}
    (h : readImport typescript (text ++ behind) = some (declaration, behind)) :
    readImport typescript text = some (declaration, []) := by
  have halone := readImport_append h (endsAlike_nil behind)
  rwa [List.append_nil] at halone

theorem prefix_of_readWordFrom {isFirst : Bool} {text rest : Text} {word : Word}
    (h : readWordFrom isFirst .plain text = (word, rest)) (he : word.escaped = false) :
    word.text <+: text := by
  induction text generalizing isFirst word with
  | nil =>
    obtain ⟨rfl, -⟩ := Prod.mk.inj h
    exact List.prefix_rfl
  | cons c text ih =>
    by_cases hp : isIdentifierPart c = true
    · have hs : wordStep isFirst .plain c = .more (some c) .plain := by
        simp [wordStep, plainWordStep, hp]
      simp only [readWordFrom, hs, prependChar, Prod.mk.injEq] at h
      obtain ⟨rfl, hrest⟩ := h
      simp only [Bool.or_eq_false_iff] at he
      have hlater := ih (Prod.ext rfl hrest) he.2
      simpa using hlater
    · by_cases hb : c = '\\'
      · subst hb
        have hs : wordStep isFirst .plain '\\' = .more none .backslash := rfl
        simp only [readWordFrom, hs, prependChar, Prod.mk.injEq] at h
        obtain ⟨rfl, -⟩ := h
        -- Only a backslash at the very end is no code, and it adds nothing to the word.
        cases text with
        | nil => simp [readWordFrom]
        | cons d text => simp [readWordFrom, wordStep, prependChar] at he
      · have hs : wordStep isFirst .plain c = .stop := by
          simp [wordStep, plainWordStep, hp, hb]
        simp only [readWordFrom, hs, Prod.mk.injEq] at h
        obtain ⟨rfl, -⟩ := h
        exact List.nil_prefix

/-- Whether a text begins with a word. Only a code in the word makes it look different. -/
structure BeginsWithWord (keyword : String) (text : Text) : Prop where
  word : (readWord text).1.text = keyword.toList
  plain : (readWord text).1.escaped = false → keyword.toList <+: text

theorem readImport_begins {typescript : Bool} {text rest : Text}
    {declaration : ImportDeclaration} (ht : IsTrimmed text)
    (h : readImport typescript text = some (declaration, rest)) :
    BeginsWithWord "import" text ∧ text.head? ≠ some '#' := by
  obtain ⟨_, _, _, hk, -, -⟩ := readImport_eq h
  obtain ⟨⟨word, hw, hword⟩, -⟩ := readKeyword_eq hk
  have hnext := nextToken_eq ht.skipTrivia (Prod.eta (readToken text)).symm
  rw [hnext] at hw
  cases text with
  | nil => cases hw
  | cons c text =>
    obtain ⟨hc, hread⟩ := readToken_word_inv hw
    have hplain : word.escaped = false → word.text <+: c :: text := by
      intro he
      exact prefix_of_readWordFrom (Prod.ext hread rfl) he
    refine ⟨⟨by rw [hread, hword], fun he => ?_⟩, ?_⟩
    · rw [hread] at he
      rw [← hword]
      exact hplain he
    · intro hhash
      obtain rfl := Option.some.inj hhash
      exact absurd hc (by decide)

theorem skipInterpreter_of_head {text : Text} (h : text.head? ≠ some '#') :
    skipInterpreter text = text := by
  unfold skipInterpreter
  split
  · simp at h
  · rfl

/-- The text of a declaration is a source of its own. -/
theorem importDeclarations_alone {path text : Text} {declaration : ImportDeclaration}
    (ht : IsTrimmed text)
    (h : readImport (Language.ofPath path).typescript text = some (declaration, [])) :
    importDeclarations path text = .ok [declaration] := by
  have hread : Reads (Language.ofPath path) ([] ++ (text ++ []))
      [.gap [], .declaration text declaration, .gap []] := by
    refine .declaration ?_ ?_ (reads_nil _)
    · simp [ht.skipTrivia]
    · simpa using h
  simp only [List.nil_append, List.append_nil] at hread
  have hskip := skipInterpreter_of_head (readImport_begins ht h).2
  have hp := pieces?_eq_some_iff.mpr ⟨[], _, _, (List.nil_append _).symm, hskip, rfl, hread⟩
  have hnil : readImport (Language.ofPath path).typescript (text ++ []) =
      some (declaration, []) := by
    rwa [List.append_nil]
  have hspan := readImport_span hnil
  have hshift : declaration.shift 0 = declaration := by
    simp [ImportDeclaration.shift, Span.shift]
  rw [importDeclarations_of_pieces hp]
  simp [declarationsFrom, byteLength, hshift]

/-- What holds of a declaration where it stands in a source. -/
structure ImportDeclaration.StandsIn (path source : Text) (declaration : ImportDeclaration)
    (before text after : Text) : Prop where
  source : source = before ++ (text ++ after)
  span : declaration.span = ⟨byteLength before, byteLength before + byteLength text⟩
  begins : BeginsWithWord "import" text
  alone : importDeclarations path text =
    .ok [{ declaration with span := ⟨0, byteLength text⟩ }]

theorem Reads.alone {language : Language} {source text : Text} {pieces : List Piece}
    {declaration : ImportDeclaration} (h : Reads language source pieces)
    (hm : .declaration text declaration ∈ pieces) :
    IsTrimmed text ∧ readImport language.typescript text = some (declaration, []) := by
  induction h with
  | finish => simp at hm
  | @declaration gap found behind first pieces hg hb _ ih =>
    simp only [List.mem_cons, reduceCtorEq, false_or, Piece.declaration.injEq] at hm
    rcases hm with ⟨rfl, rfl⟩ | hm
    · have ht := isTrimmed_of_skipTrivia hg
      have hne := readImport_ne_nil hb
      obtain ⟨c, rest, rfl⟩ := List.exists_cons_of_ne_nil hne
      have hc : c ≠ '/' := by
        rintro rfl
        obtain ⟨_, _, _, hk, -, -⟩ := readImport_eq hb
        obtain ⟨⟨word, hw, -⟩, -⟩ := readKeyword_eq hk
        have hnext := nextToken_eq ht.skipTrivia
          (Prod.eta (readToken ('/' :: rest ++ behind))).symm
        rw [hnext] at hw
        exact absurd (readToken_word_inv hw).1 (by decide)
      exact ⟨ht.congr hc, readImport_alone hb⟩
    · exact ih hm
  | statement _ _ _ ih =>
    simp only [List.mem_cons, reduceCtorEq, false_or] at hm
    exact ih hm

theorem mem_declarationsFrom_split {offset : Nat} {pieces : List Piece}
    {declaration : ImportDeclaration} (h : declaration ∈ declarationsFrom offset pieces) :
    ∃ before text after found, .declaration text found ∈ pieces ∧
      textOf pieces = before ++ (text ++ after) ∧
      declaration = found.shift (offset + byteLength before) := by
  induction pieces generalizing offset with
  | nil => simp [declarationsFrom] at h
  | cons piece pieces ih =>
    have hbehind (h : declaration ∈ declarationsFrom (offset + byteLength piece.text) pieces) :
        ∃ before text after found, .declaration text found ∈ piece :: pieces ∧
          textOf (piece :: pieces) = before ++ (text ++ after) ∧
          declaration = found.shift (offset + byteLength before) := by
      obtain ⟨before, text, after, found, hm, htext, rfl⟩ := ih h
      refine ⟨piece.text ++ before, text, after, found, .tail _ hm, ?_, ?_⟩
      · simp only [textOf, List.flatMap_cons, List.append_assoc] at htext ⊢
        rw [htext]
      · rw [byteLength_append, Nat.add_assoc]
    cases piece with
    | gap text => exact hbehind h
    | statement text => exact hbehind h
    | declaration text found =>
      rcases List.mem_cons.mp h with rfl | h
      · exact ⟨[], text, textOf pieces, found, .head _, rfl, by simp [byteLength]⟩
      · exact hbehind h

theorem declarationsFrom_ordered {offset : Nat} {pieces : List Piece} (hf : FitsPieces pieces) :
    (declarationsFrom offset pieces).Pairwise fun a b => a.span.stop ≤ b.span.start := by
  induction pieces generalizing offset with
  | nil => exact .nil
  | cons piece pieces ih =>
    have hf' : FitsPieces pieces := fun text declaration hm => hf text declaration (.tail _ hm)
    cases piece with
    | gap text => exact ih hf'
    | statement text => exact ih hf'
    | declaration text declaration =>
      have hspan := hf text declaration (.head _)
      refine .cons (fun later hl => ?_) (ih hf')
      obtain ⟨before, inside, after, found, hm, -, rfl⟩ := mem_declarationsFrom_split hl
      have hfound := hf' inside found hm
      simp only [ImportDeclaration.shift, Span.shift, hspan, hfound]
      omega

theorem byteLength_pos {text : Text} (h : text ≠ []) : 0 < byteLength text := by
  obtain ⟨c, text, rfl⟩ := List.exists_cons_of_ne_nil h
  have hc := c.utf8Size_pos
  simp only [byteLength]
  omega

theorem span_pos_of_declarations {path source : Text} {declarations : List ImportDeclaration}
    (h : importDeclarations path source = .ok declarations) :
    ∀ declaration ∈ declarations, declaration.span.start < declaration.span.stop := by
  obtain ⟨pieces, hp, rfl⟩ := importDeclarations_eq_ok h
  obtain ⟨line, rest, later, -, -, rfl, hread⟩ := pieces?_eq_some_iff.mp hp
  intro declaration hd
  obtain ⟨before, text, after, found, hm, -, rfl⟩ := mem_declarationsFrom_split hd
  have hm' : .declaration text found ∈ later := by simpa using hm
  have halone := (hread.alone hm').2
  rw [← List.append_nil text] at halone
  have hpos := byteLength_pos (readImport_ne_nil halone)
  have hfound : found.span = ⟨0, byteLength text⟩ := pieces?_fits hp text found hm
  simp only [ImportDeclaration.shift, Span.shift, hfound]
  omega

theorem starts_of_declarations {path source : Text} {declarations : List ImportDeclaration}
    (h : importDeclarations path source = .ok declarations) :
    declarations.Pairwise fun a b => a.span.start < b.span.start := by
  have hpos := span_pos_of_declarations h
  obtain ⟨pieces, hp, rfl⟩ := importDeclarations_eq_ok h
  refine (declarationsFrom_ordered (pieces?_fits hp)).imp_of_mem fun ha _ hab => ?_
  have hstart := hpos _ ha
  omega

/-- The declarations of a source stand behind each other. Each takes up some of the source, begins
with the word `import`, and is the only declaration of its text when that is read alone. -/
theorem importDeclarations_selfContained {path source : Text}
    {declarations : List ImportDeclaration}
    (h : importDeclarations path source = .ok declarations) :
    (declarations.Pairwise fun a b => a.span.stop ≤ b.span.start) ∧
      ∀ declaration ∈ declarations,
        declaration.span.start < declaration.span.stop ∧
        declaration.span.stop ≤ byteLength source ∧
        ∃ before text after, declaration.StandsIn path source before text after ∧
          declaration.span.split source = some (before, text, after) := by
  obtain ⟨pieces, hp, rfl⟩ := importDeclarations_eq_ok h
  obtain ⟨line, rest, later, -, -, rfl, hread⟩ := pieces?_eq_some_iff.mp hp
  refine ⟨declarationsFrom_ordered (pieces?_fits hp), fun declaration hd => ?_⟩
  obtain ⟨before, text, after, found, hm, htext, rfl⟩ := mem_declarationsFrom_split hd
  have hm' : .declaration text found ∈ later := by simpa using hm
  obtain ⟨ht, halone⟩ := hread.alone hm'
  have hsource : source = before ++ (text ++ after) := by rw [← pieces?_text hp, htext]
  have hfound : found.span = ⟨0, byteLength text⟩ := pieces?_fits hp text found hm
  have hspan : (found.shift (0 + byteLength before)).span =
      ⟨byteLength before, byteLength before + byteLength text⟩ := by
    simp [ImportDeclaration.shift, Span.shift, hfound]
  have hne : text ≠ [] := by
    rw [← List.append_nil text] at halone
    exact readImport_ne_nil halone
  have hpos := byteLength_pos hne
  have hself : ({ found.shift (0 + byteLength before) with span := ⟨0, byteLength text⟩ } :
      ImportDeclaration) = found := by
    rw [← hfound]
    rfl
  refine ⟨?_, ?_, before, text, after, ?_, ?_⟩
  · rw [hspan]
    change byteLength before < byteLength before + byteLength text
    omega
  · rw [hspan, hsource, byteLength_append, byteLength_append]
    change byteLength before + byteLength text ≤ _
    omega
  · exact {
      source := hsource
      span := hspan
      begins := (readImport_begins ht halone).1
      alone := by rw [hself, importDeclarations_alone ht halone] }
  · rw [hspan, hsource, Span.split_append]

theorem mixedSource_selfContained :
    ([mixedDeclaration].Pairwise fun a b => a.span.stop ≤ b.span.start) ∧
      ∀ declaration ∈ [mixedDeclaration],
        declaration.span.start < declaration.span.stop ∧
        declaration.span.stop ≤ byteLength mixedSource ∧
        ∃ before text after,
          declaration.StandsIn "t.ts".toList mixedSource before text after ∧
          declaration.span.split mixedSource = some (before, text, after) :=
  importDeclarations_selfContained mixedSource_read

/-- A keyword may be written with the code of one of its letters. -/
def codedSource : Text :=
  "\\u0069mport 'l'".toList

/-- The text of a declaration need not begin with the letters of `import`. -/
theorem codedSource_begins_otherwise : ∃ declaration,
    importDeclarations "t.ts".toList codedSource = .ok [declaration] ∧
      declaration.span.slice codedSource = some codedSource ∧
      ¬"import".toList <+: codedSource := by
  have hp : pieces? (Language.ofPath "t.ts".toList) codedSource = some [.gap [], .gap [],
      .declaration codedSource ⟨⟨0, 15⟩, some ['l'], [], false⟩, .gap []] := by
    decide +kernel
  exact ⟨_, importDeclarations_of_pieces hp, by decide, by decide⟩

end DirectImports
