import DirectImports.Proofs.DirectPath
import DirectImports.Proofs.Reading

/-! Written tokens are read back: names that a word spells out, and texts between quotes. -/

namespace DirectImports

theorem nextToken_space (text : Text) : nextToken (' ' :: text) = nextToken text := by
  have hs : skipTrivia (' ' :: text) = skipTrivia text := by
    simp [skipTrivia, skipTriviaFrom_plain_cons, isLineEnd, isGap]
  simp only [nextToken, hs]

/-- Whether a text is a word as it stands, without a code in it. -/
def isPlainWord : Text → Bool
  | [] => false
  | c :: text => beginsWord? c && !isLineEnd c && !isGap c && (c :: text).all isIdentifierPart

/-- Whether a word ends before that character. -/
def endsWord (c : Char) : Bool :=
  !isIdentifierPart c && c != '\\'

theorem readWordFrom_plain {name rest : Text} {d : Char} (isFirst : Bool)
    (hn : name.all isIdentifierPart = true) (hd : endsWord d = true) :
    readWordFrom isFirst .plain (name ++ d :: rest) = (⟨name, false⟩, d :: rest) := by
  induction name generalizing isFirst with
  | nil =>
    obtain ⟨hp, hb⟩ := Bool.and_eq_true_iff.mp hd
    have hstop : plainWordStep d = .stop := by
      simp only [Bool.not_eq_true', bne_iff_ne] at hp hb
      simp [plainWordStep, hp, hb]
    simp [readWordFrom, wordStep, hstop]
  | cons c name ih =>
    obtain ⟨hc, hn⟩ := Bool.and_eq_true_iff.mp (List.all_cons ▸ hn)
    simp [readWordFrom, wordStep, plainWordStep, hc, prependChar, ih _ hn]

theorem nextToken_plainWord {name rest : Text} {d : Char} (hn : isPlainWord name = true)
    (hd : endsWord d = true) : nextToken (name ++ d :: rest) =
      ⟨⟨false, .word ⟨name, false⟩⟩, name ++ d :: rest, d :: rest⟩ := by
  cases name with
  | nil => simp [isPlainWord] at hn
  | cons c name =>
    simp only [isPlainWord, Bool.and_eq_true, Bool.not_eq_true'] at hn
    obtain ⟨⟨⟨hw, hl⟩, hg⟩, hp⟩ := hn
    have hslash : c ≠ '/' := by
      rintro rfl
      exact absurd hw (by decide)
    refine nextToken_eq ?_ ?_
    · simp [skipTrivia, skipTriviaFrom_plain_cons _ hslash, hl, hg]
    · have hread : readWord (c :: name ++ d :: rest) = (⟨c :: name, false⟩, d :: rest) :=
        readWordFrom_plain true hp hd
      rw [List.cons_append] at hread ⊢
      rw [readToken_word _ hw, hread]

theorem readWordFrom_length_le (isFirst : Bool) (mode : WordMode) (text : Text) :
    (readWordFrom isFirst mode text).1.text.length ≤ text.length := by
  induction text generalizing isFirst mode with
  | nil => simp [readWordFrom]
  | cons c text ih =>
    cases hs : wordStep isFirst mode c with
    | stop => simp [readWordFrom, hs]
    | more added next =>
      have hle := ih (isFirst && next != .plain) next
      have ha : added.toList.length ≤ 1 := by cases added <;> simp
      simp only [readWordFrom, hs, prependChar, List.length_append, List.length_cons]
      omega

/-- A word that is its own text has no code in it. -/
theorem all_isIdentifierPart_of_read {isFirst : Bool} {text : Text}
    (h : (readWordFrom isFirst .plain text).1.text = text) :
    text.all isIdentifierPart = true := by
  induction text generalizing isFirst with
  | nil => rfl
  | cons c text ih =>
    by_cases hc : isIdentifierPart c = true
    · simp only [readWordFrom, wordStep, plainWordStep, hc, if_true, prependChar,
        Option.toList_some, List.singleton_append, List.cons.injEq, true_and] at h
      simp [hc, ih h]
    · by_cases hb : c = '\\'
      · have hle := readWordFrom_length_le (isFirst && WordMode.backslash != .plain) .backslash text
        simp only [readWordFrom, wordStep, plainWordStep, if_neg hc, if_pos hb, prependChar,
          Option.toList_none, List.nil_append] at h
        rw [h, List.length_cons] at hle
        omega
      · simp [readWordFrom, wordStep, plainWordStep, hc, hb] at h

/-- A name that can be bound as it stands. -/
def IsBindingName (name : Text) : Prop :=
  readBinding name = some (name, [])

instance (name : Text) : Decidable (IsBindingName name) :=
  inferInstanceAs (Decidable (_ = _))

theorem IsBindingName.isPlainWord {name : Text} (h : IsBindingName name) :
    isPlainWord name = true := by
  obtain ⟨⟨word, hw, hword, -⟩, -⟩ := readBinding_eq h
  have hs := skipTrivia_suffix name
  have ht := skipTrivia_trimmed name
  have hread : readToken (skipTrivia name).2 = (.word word, (nextToken name).rest) :=
    Prod.ext hw rfl
  cases hstart : (skipTrivia name).2 with
  | nil =>
    rw [hstart] at hread
    simp [readToken] at hread
  | cons c text =>
    rw [hstart] at hread hs ht
    rcases readToken_inImport hread rfl with ⟨_, hw', hc, hr⟩ | ⟨_, hl, -⟩ | ⟨_, hm, -⟩
    · obtain rfl := Token.word.inj hw'
      have hle := readWordFrom_length_le true .plain (c :: text)
      rw [← readWord, hr, hword] at hle
      obtain rfl := hs.eq_of_length (Nat.le_antisymm hs.length_le hle)
      have hslash : c ≠ '/' := by
        rintro rfl
        exact absurd hc (by decide)
      have hall := all_isIdentifierPart_of_read (by rw [← readWord, hr, hword])
      simp [DirectImports.isPlainWord, hc, (ht.head hslash).1, (ht.head hslash).2, hall]
    · simp at hl
    · simp at hm

theorem IsBindingName.isReserved {name : Text} (h : IsBindingName name) :
    isReserved name = false := by
  obtain ⟨⟨word, -, -, hn⟩, -⟩ := readBinding_eq h
  exact hn

/-- Whether a text may stand between double quotes as it is. -/
def IsQuotable (text : Text) : Prop :=
  ∀ c ∈ text, c ≠ '"' ∧ c ≠ '\\' ∧ c ≠ '\n' ∧ c ≠ '\r'

instance (text : Text) : Decidable (IsQuotable text) :=
  List.decidableBAll _ text

theorem readUnits_quotable {text : Text} (rest : Text) (h : IsQuotable text) :
    readUnits '"' .plain (text ++ '"' :: rest) =
      some (text.map fun c => .point c.toNat, rest) := by
  induction text with
  | nil => simp [readUnits, literalStep, plainStep]
  | cons c text ih =>
    obtain ⟨hq, hb, hn, hr⟩ := h c (.head _)
    have ht := ih fun d hd => h d (.tail _ hd)
    simp [readUnits, literalStep, plainStep, hq, hb, hn, hr, ht]

theorem isHalf_toNat (c : Char) : isHalf c.toNat = false := by
  have hv := c.valid
  simp only [UInt32.isValidChar, Nat.isValidChar] at hv
  simp only [isHalf, isHighHalf, isLowHalf, Char.toNat, Bool.or_eq_false_iff,
    Bool.and_eq_false_iff, decide_eq_false_iff_not]
  omega

theorem joinHalves_points (codes : List Nat) :
    joinHalves (codes.map LiteralUnit.point) = codes := by
  induction codes with
  | nil => rfl
  | cons code codes ih => simp [joinHalves, ih]

theorem textOfUnits_points (text : Text) :
    textOfUnits (text.map fun c => .point c.toNat) = text := by
  have hj : joinHalves (text.map fun c => .point c.toNat) = text.map Char.toNat := by
    rw [← joinHalves_points (text.map Char.toNat), List.map_map]
    rfl
  have ha : (text.map Char.toNat).any isHalf = false := by
    simp [isHalf_toNat]
  simp only [textOfUnits, hj, ha, Bool.false_and, Bool.or_false, List.flatMap_map, isHalf_toNat]
  simp

theorem nextToken_quoted {text : Text} (rest : Text) (h : IsQuotable text) :
    nextToken ('"' :: (text ++ '"' :: rest)) =
      ⟨⟨false, .literal text⟩, '"' :: (text ++ '"' :: rest), rest⟩ := by
  refine nextToken_eq (isTrimmed_cons (by decide) rfl rfl).skipTrivia ?_
  exact readToken_literal (.inl rfl) (by simp [readLiteral, readUnits_quotable rest h,
    textOfUnits_points])

theorem nextToken_single {c : Char} {mark : Mark} (rest : Text) (hs : singleMark? c = some mark)
    (hm : mark.inImport = true) :
    nextToken (c :: rest) = ⟨⟨false, .mark mark⟩, c :: rest, rest⟩ := by
  have hc : c ≠ '/' ∧ isLineEnd c = false ∧ isGap c = false := by
    have hall : ∀ d ∈ ['\x7b', '\x7d', ',', ':', ';'],
        d ≠ '/' ∧ isLineEnd d = false ∧ isGap d = false := by
      simp only [List.forall_mem_cons, List.not_mem_nil, false_imp_iff, implies_true, and_true]
      decide
    exact hall c (singleMark?_inImport hs hm)
  refine nextToken_eq (isTrimmed_cons hc.1 hc.2.1 hc.2.2).skipTrivia ?_
  exact readToken_mark hm (by simp [readMark?, hs])

theorem nextToken_semicolon (rest : Text) :
    nextToken (';' :: rest) = ⟨⟨false, .mark .semicolon⟩, ';' :: rest, rest⟩ :=
  nextToken_single rest rfl rfl

theorem nextToken_openBrace (rest : Text) :
    nextToken ('\x7b' :: rest) = ⟨⟨false, .mark .openBrace⟩, '\x7b' :: rest, rest⟩ :=
  nextToken_single rest rfl rfl

theorem nextToken_closeBrace (rest : Text) :
    nextToken ('\x7d' :: rest) = ⟨⟨false, .mark .closeBrace⟩, '\x7d' :: rest, rest⟩ :=
  nextToken_single rest rfl rfl

/-- A word of a written import, behind which a space stands. -/
theorem nextToken_word {name : Text} (rest : Text) (h : isPlainWord name = true) :
    nextToken (name ++ ' ' :: rest) =
      ⟨⟨false, .word ⟨name, false⟩⟩, name ++ ' ' :: rest, ' ' :: rest⟩ :=
  nextToken_plainWord h (by decide)

/-- What stands behind the `from` of a written import. -/
def sourceText (path rest : Text) : Text :=
  ' ' :: '"' :: (path ++ '"' :: ';' :: rest)

theorem readString_sourceText {path : Text} (rest : Text) (h : IsQuotable path) :
    readString (sourceText path rest) = some (path, ';' :: rest) := by
  simp [readString, sourceText, nextToken_space, nextToken_quoted _ h]

theorem hasKeyword_sourceText {path : Text} (keyword : String) (rest : Text)
    (h : IsQuotable path) : hasKeyword keyword (sourceText path rest) = false := by
  simp [hasKeyword, readKeyword, View.isWord, sourceText, nextToken_space, nextToken_quoted _ h]

theorem hasMark_sourceText {path : Text} (mark : Mark) (rest : Text) (h : IsQuotable path) :
    hasMark mark (sourceText path rest) = false := by
  simp [hasMark, readMark, View.is, sourceText, nextToken_space, nextToken_quoted _ h]

theorem readEnd_semicolon (rest : Text) : readEnd (';' :: rest) = some rest := by
  simp [readEnd, View.is, nextToken_semicolon]

theorem readAttributeClause_semicolon (rest : Text) :
    readAttributeClause (';' :: rest) = some (';' :: rest) := by
  simp [readAttributeClause, readAttributeKeyword, View.isWord, nextToken_semicolon]

/-- What stands behind the clause of a written import. -/
def fromText (path rest : Text) : Text :=
  ' ' :: ("from".toList ++ sourceText path rest)

theorem nextToken_fromText (path rest : Text) :
    nextToken (fromText path rest) =
      ⟨⟨false, .word ⟨"from".toList, false⟩⟩, "from".toList ++ sourceText path rest,
        sourceText path rest⟩ := by
  rw [fromText, nextToken_space]
  exact nextToken_word _ (by decide)

theorem readKeyword_word {name : Text} (keyword : String) (rest : Text)
    (h : isPlainWord name = true) :
    readKeyword keyword (name ++ ' ' :: rest) =
      if name = keyword.toList then some (' ' :: rest) else none := by
  simp [readKeyword, View.isWord, Word.is, nextToken_word _ h]

theorem readKeyword_fromText (path rest : Text) :
    readKeyword "from" (fromText path rest) = some (sourceText path rest) := by
  simp [readKeyword, View.isWord, Word.is, nextToken_fromText]

theorem readKeyword_name {name : Text} (keyword : String) (path rest : Text)
    (h : isPlainWord name = true) :
    readKeyword keyword (name ++ fromText path rest) =
      if name = keyword.toList then some (fromText path rest) else none :=
  readKeyword_word keyword _ h

section

variable {typescript : Bool} {name path : Text} (rest : Text)

theorem readBindings_name (h : IsBindingName name) :
    readBindings typescript (name ++ fromText path rest) =
      some ([.byDefault name], fromText path rest) := by
  have hb : readBinding (name ++ fromText path rest) = some (name, fromText path rest) := by
    simp [readBinding, fromText, nextToken_word _ h.isPlainWord, h.isReserved]
  have hc : readMark .comma (fromText path rest) = none := by
    simp [readMark, View.is, nextToken_fromText]
  simp [readBindings, hb, hc]

theorem typeModifies_fromText (h : IsQuotable path) :
    typeModifies (fromText path rest) = false := by
  simp [typeModifies, readKeyword_fromText, hasKeyword_sourceText _ _ h, hasMark_sourceText _ _ h]

theorem sourceModifies_fromText (h : IsQuotable path) :
    sourceModifies (fromText path rest) = false := by
  simp [sourceModifies, readKeyword_fromText, hasKeyword_sourceText _ _ h]

theorem hasMark_fromText (mark : Mark) : hasMark mark (fromText path rest) = false := by
  simp [hasMark, readMark, View.is, nextToken_fromText]

theorem readPhase_name (h : IsBindingName name) (hp : IsQuotable path) :
    readPhase typescript (name ++ fromText path rest) =
      some ([.byDefault name], fromText path rest) := by
  simp only [readPhase, readKeyword_name _ _ _ h.isPlainWord]
  have hb : readBindings typescript (name ++ fromText path rest) = _ := readBindings_name rest h
  by_cases hs : name = "source".toList
  · simpa only [if_pos hs, sourceModifies_fromText rest hp, Bool.false_eq_true, if_false] using hb
  · by_cases hd : name = "defer".toList
    · simpa only [if_neg hs, if_pos hd, hasMark_fromText, Bool.false_eq_true, if_false] using hb
    · simpa only [if_neg hs, if_neg hd] using hb

theorem readModified_name (h : IsBindingName name) (hp : IsQuotable path) :
    readModified typescript (name ++ fromText path rest) =
      some (⟨false, [.byDefault name]⟩, fromText path rest) := by
  simp only [readModified, readKeyword_name _ _ _ h.isPlainWord]
  by_cases ht : name = "type".toList
  · simp only [if_pos ht, typeModifies_fromText rest hp, Bool.false_eq_true, if_false,
      readBindings_name rest h]
    rfl
  · simp only [if_neg ht, readPhase_name rest h hp]
    rfl

theorem readClause_name (h : IsBindingName name) (hp : IsQuotable path) :
    readClause typescript (name ++ fromText path rest) =
      some (⟨false, [.byDefault name]⟩, sourceText path rest) := by
  have hs : readString (name ++ fromText path rest) = none := by
    simp [readString, fromText, nextToken_word _ h.isPlainWord]
  have hb : isBareFrom (name ++ fromText path rest) = false := by
    have hf : readString (fromText path rest) = none := by
      simp [readString, nextToken_fromText]
    simp only [isBareFrom, readKeyword_name _ _ _ h.isPlainWord]
    split <;> simp [hf]
  simp [readClause, hs, hb, readModified_name rest h hp, readKeyword_fromText]

theorem readSpecifiers_name (h : isPlainWord name = true) (fuel : Nat) :
    readSpecifiers typescript (fuel + 1) (' ' :: (name ++ ' ' :: '\x7d' :: rest)) =
      some ([.named name name false], rest) := by
  have hclose : nextToken (' ' :: '\x7d' :: rest) =
      ⟨⟨false, .mark .closeBrace⟩, '\x7d' :: rest, rest⟩ := by
    rw [nextToken_space, nextToken_closeBrace]
  have hw : nextToken (' ' :: (name ++ ' ' :: '\x7d' :: rest)) =
      ⟨⟨false, .word ⟨name, false⟩⟩, name ++ ' ' :: '\x7d' :: rest, ' ' :: '\x7d' :: rest⟩ := by
    rw [nextToken_space, nextToken_word _ h]
  have has : readKeyword "as" (' ' :: '\x7d' :: rest) = none := by
    simp [readKeyword, View.isWord, hclose]
  have hname : readExportName (' ' :: '\x7d' :: rest) = none := by
    simp [readExportName, hclose]
  have hs : readSpecifier typescript (' ' :: (name ++ ' ' :: '\x7d' :: rest)) =
      some (.named name name false, ' ' :: '\x7d' :: rest) := by
    simp only [readSpecifier, hw, Word.is]
    split
    next ht => simp [readAfterType, has, hname, beq_iff_eq.mp ht]
    next => simp [readAlias, has]
  simp [readSpecifiers, readMark, View.is, hw, hs, hclose]

theorem nextToken_braced : nextToken (bracedName name ++ fromText path rest) =
    ⟨⟨false, .mark .openBrace⟩, bracedName name ++ fromText path rest,
      ' ' :: (name ++ ' ' :: '\x7d' :: fromText path rest)⟩ := by
  simp [bracedName, nextToken_openBrace]

theorem readBindings_braced (h : isPlainWord name = true) :
    readBindings typescript (bracedName name ++ fromText path rest) =
      some ([.named name name false], fromText path rest) := by
  simp [readBindings, readBinding, readBraced, readMark, View.is, nextToken_braced,
    readSpecifiers_name _ h]

theorem readClause_braced (h : isPlainWord name = true) :
    readClause typescript (bracedName name ++ fromText path rest) =
      some (⟨false, [.named name name false]⟩, sourceText path rest) := by
  simp [readClause, readString, isBareFrom, readModified, readPhase, readKeyword, View.isWord,
    nextToken_braced, readBindings_braced rest h, Word.is, nextToken_fromText]

/-- The modifier of a written import of types. -/
def typeText (rest : Text) : Text :=
  "type".toList ++ ' ' :: rest

theorem readBindings_space (text : Text) :
    readBindings typescript (' ' :: text) = readBindings typescript text := by
  simp only [readBindings, readBinding, readBraced, readMark, nextToken_space]

theorem typeModifies_space (text : Text) : typeModifies (' ' :: text) = typeModifies text := by
  simp only [typeModifies, readKeyword, readBinding, hasMark, readMark, nextToken_space]

theorem nextToken_typeText (text : Text) : nextToken (typeText text) =
    ⟨⟨false, .word ⟨"type".toList, false⟩⟩, typeText text, ' ' :: text⟩ :=
  nextToken_word text (by decide)

theorem readClause_type {specifiers : List Specifier} {text : Text}
    (hm : typeModifies text = true)
    (hb : readBindings true text = some (specifiers, fromText path rest)) :
    readClause true (typeText text) = some (⟨true, specifiers⟩, sourceText path rest) := by
  have hs : readString (typeText text) = none := by
    simp [readString, nextToken_typeText]
  have hf : isBareFrom (typeText text) = false := by
    simp [isBareFrom, readKeyword, View.isWord, Word.is, nextToken_typeText]
  have ht : readModified true (typeText text) =
      some (⟨true, specifiers⟩, fromText path rest) := by
    simp [readModified, readKeyword, View.isWord, Word.is, nextToken_typeText,
      typeModifies_space, hm, readBindings_space, hb]
  simp [readClause, hs, hf, ht, readKeyword_fromText]

theorem typeModifies_name (h : IsBindingName name) :
    typeModifies (name ++ fromText path rest) = true := by
  simp only [typeModifies, readKeyword_name _ _ _ h.isPlainWord]
  by_cases hn : name = "from".toList
  · simp only [if_pos hn, hasKeyword, readKeyword_fromText, Option.isSome_some, Bool.true_or]
  · have hb : readBinding (name ++ fromText path rest) = some (name, fromText path rest) := by
      simp [readBinding, fromText, nextToken_word _ h.isPlainWord, h.isReserved]
    simp only [if_neg hn, hb, Option.isSome_some, Bool.true_or]

theorem typeModifies_braced : typeModifies (bracedName name ++ fromText path rest) = true := by
  simp [typeModifies, readKeyword, View.isWord, hasMark, readMark, View.is, nextToken_braced]

end

theorem readString_space (text : Text) : readString (' ' :: text) = readString text := by
  simp only [readString, nextToken_space]

theorem readPhase_space (typescript : Bool) (text : Text) :
    readPhase typescript (' ' :: text) = readPhase typescript text := by
  simp only [readPhase, readKeyword, nextToken_space, readBindings_space]
  split
  · rfl
  · split <;> simp only [readBindings_space]
  · rfl

theorem readModified_space (typescript : Bool) (text : Text) :
    readModified typescript (' ' :: text) = readModified typescript text := by
  simp only [readModified, readKeyword, nextToken_space, readBindings_space, readPhase_space]

/-- A clause that does not begin with a string is read behind a space as well. -/
theorem readClause_space {typescript : Bool} {text : Text} (hs : readString text = none) :
    readClause typescript (' ' :: text) = readClause typescript text := by
  have hf : isBareFrom (' ' :: text) = isBareFrom text := by
    simp only [isBareFrom, readKeyword, nextToken_space]
  simp only [readClause, readString_space, hs, hf, readModified_space]
  split
  · simp only [readKeyword]
    rfl
  · rfl

/-- The text of an import statement behind its first word. -/
def clauseText (isTypeOnly : Bool) (clause path rest : Text) : Text :=
  if isTypeOnly then typeText (clause ++ fromText path rest) else clause ++ fromText path rest

theorem importStatement_append (isTypeOnly : Bool) (clause path rest : Text) :
    importStatement isTypeOnly clause path ++ rest =
      "import".toList ++ ' ' :: clauseText isTypeOnly clause path rest := by
  unfold importStatement
  cases isTypeOnly <;> simp [clauseText, typeText, fromText, sourceText]

/-- An import statement is read as its clause from its path. -/
theorem readImport_importStatement {typescript isTypeOnly : Bool} {clause path : Text}
    {specifiers : List Specifier} (rest : Text) (hp : IsQuotable path)
    (hc : readClause typescript (' ' :: clauseText isTypeOnly clause path rest) =
      some (⟨isTypeOnly, specifiers⟩, sourceText path rest)) :
    readImport typescript (importStatement isTypeOnly clause path ++ rest) =
      some (⟨⟨0, byteLength (importStatement isTypeOnly clause path)⟩, some path, specifiers,
        isTypeOnly⟩, rest) := by
  have hk : readKeyword "import" (importStatement isTypeOnly clause path ++ rest) =
      some (' ' :: clauseText isTypeOnly clause path rest) := by
    rw [importStatement_append, readKeyword_word _ _ (by decide), if_pos rfl]
  have ha : readAfterImport typescript (' ' :: clauseText isTypeOnly clause path rest) =
      some (⟨isTypeOnly, specifiers⟩, path, rest) := by
    simp [readAfterImport, hc, readString_sourceText rest hp, readAttributeClause_semicolon,
      readEnd_semicolon]
  simp [readImport, hk, ha]

theorem readString_clauseText {isTypeOnly : Bool} {clause path rest : Text}
    (hc : readString (clause ++ fromText path rest) = none) :
    readString (clauseText isTypeOnly clause path rest) = none := by
  cases isTypeOnly with
  | false => exact hc
  | true => simp [clauseText, readString, nextToken_typeText]

theorem readImport_byDefault {typescript isTypeOnly : Bool} {name path : Text} (rest : Text)
    (ht : isTypeOnly = true → typescript = true) (hn : IsBindingName name)
    (hp : IsQuotable path) :
    readImport typescript (importStatement isTypeOnly name path ++ rest) =
      some (⟨⟨0, byteLength (importStatement isTypeOnly name path)⟩, some path,
        [.byDefault name], isTypeOnly⟩, rest) := by
  have hs : readString (name ++ fromText path rest) = none := by
    simp [readString, fromText, nextToken_word _ hn.isPlainWord]
  refine readImport_importStatement rest hp ?_
  rw [readClause_space (readString_clauseText hs)]
  cases isTypeOnly with
  | false => exact readClause_name rest hn hp
  | true =>
    rw [ht rfl]
    exact readClause_type rest (typeModifies_name rest hn) (readBindings_name rest hn)

theorem readImport_braced {typescript isTypeOnly : Bool} {name path : Text} (rest : Text)
    (ht : isTypeOnly = true → typescript = true) (hn : isPlainWord name = true)
    (hp : IsQuotable path) :
    readImport typescript (importStatement isTypeOnly (bracedName name) path ++ rest) =
      some (⟨⟨0, byteLength (importStatement isTypeOnly (bracedName name) path)⟩, some path,
        [.named name name false], isTypeOnly⟩, rest) := by
  have hs : readString (bracedName name ++ fromText path rest) = none := by
    simp [readString, nextToken_braced]
  refine readImport_importStatement rest hp ?_
  rw [readClause_space (readString_clauseText hs)]
  cases isTypeOnly with
  | false => exact readClause_braced rest hn
  | true =>
    rw [ht rfl]
    exact readClause_type rest (typeModifies_braced rest) (readBindings_braced rest hn)

end DirectImports
