import DirectImports.Proofs.Spans
import DirectImports.Proofs.Spelling

/-! Sources of import declarations as they may be written. Each declaration consists of the tokens
that stand for it, and a source of such declarations is read as these. -/

namespace DirectImports

def wordToken (name : Text) : Token :=
  .word ⟨name, false⟩

def keywordToken (keyword : String) : Token :=
  wordToken keyword.toList

/-- The token that names an export: a word or a string. -/
inductive NameToken : Text → Token → Prop
  | word {name : Text} : NameToken name (wordToken name)
  | literal {name : Text} : NameToken name (.literal name)

/-- The tokens for an imported name and its local name. -/
inductive AliasTokens : Text → Text → List Token → Prop
  | same {name : Text} (hn : isReserved name = false) : AliasTokens name name [wordToken name]
  | renamed {name localName : Text} {token : Token} (ht : NameToken name token)
      (hl : isReserved localName = false) :
      AliasTokens name localName [token, keywordToken "as", wordToken localName]

inductive SpecifierTokens (typescript : Bool) : Specifier → List Token → Prop
  | value {name localName : Text} {tokens : List Token} (h : AliasTokens name localName tokens) :
      SpecifierTokens typescript (.named name localName false) tokens
  | type {name localName : Text} {tokens : List Token} (ht : typescript = true)
      (h : AliasTokens name localName tokens) :
      SpecifierTokens typescript (.named name localName true) (keywordToken "type" :: tokens)

/-- The tokens for specifiers in braces, behind the opening one. -/
inductive ListTokens (typescript : Bool) : List Specifier → List Token → Prop
  | nil : ListTokens typescript [] [.mark .closeBrace]
  | last {specifier : Specifier} {tokens : List Token}
      (h : SpecifierTokens typescript specifier tokens) :
      ListTokens typescript [specifier] (tokens ++ [.mark .closeBrace])
  | next {specifier : Specifier} {specifiers : List Specifier} {tokens others : List Token}
      (h : SpecifierTokens typescript specifier tokens)
      (later : ListTokens typescript specifiers others) :
      ListTokens typescript (specifier :: specifiers) (tokens ++ .mark .comma :: others)

inductive BracedTokens (typescript : Bool) : List Specifier → List Token → Prop
  | entire {name : Text} (hn : isReserved name = false) :
      BracedTokens typescript [.entire name] [.mark .star, keywordToken "as", wordToken name]
  | named {specifiers : List Specifier} {tokens : List Token}
      (h : ListTokens typescript specifiers tokens) :
      BracedTokens typescript specifiers (.mark .openBrace :: tokens)

inductive BindingTokens (typescript : Bool) : List Specifier → List Token → Prop
  | braced {specifiers : List Specifier} {tokens : List Token}
      (h : BracedTokens typescript specifiers tokens) : BindingTokens typescript specifiers tokens
  | byDefault {name : Text} (hn : isReserved name = false) :
      BindingTokens typescript [.byDefault name] [wordToken name]
  | both {name : Text} {specifiers : List Specifier} {tokens : List Token}
      (hn : isReserved name = false) (h : BracedTokens typescript specifiers tokens) :
      BindingTokens typescript (.byDefault name :: specifiers)
        (wordToken name :: .mark .comma :: tokens)

def fromTokens (source : Text) : List Token :=
  [keywordToken "from", .literal source]

/-- The tokens for a declaration. A declaration for types has no flags for each of them. -/
inductive DeclarationTokens (typescript : Bool) : Imported → List Token → Prop
  | bare {source : Text} :
      DeclarationTokens typescript ⟨some source, [], false⟩
        [keywordToken "import", .literal source]
  | values {source : Text} {specifiers : List Specifier} {tokens : List Token}
      (h : BindingTokens typescript specifiers tokens) :
      DeclarationTokens typescript ⟨some source, specifiers, false⟩
        (keywordToken "import" :: (tokens ++ fromTokens source))
  | types {source : Text} {specifiers : List Specifier} {tokens : List Token}
      (ht : typescript = true) (h : BindingTokens typescript specifiers tokens)
      (hv : ∀ specifier ∈ specifiers, specifier.isType = false) :
      DeclarationTokens typescript ⟨some source, specifiers, true⟩
        (keywordToken "import" :: keywordToken "type" :: (tokens ++ fromTokens source))

/-- The text of a declaration, and what may stand behind it to end its line. -/
inductive StatementText (tokens : List Token) : Text → Text → Prop
  | semicolon {text : Text} (h : TokensText (tokens ++ [.mark .semicolon]) text) :
      StatementText tokens text []
  | lineEnd {text ending : Text} (h : TokensText tokens text) (he : Trivia true ending) :
      StatementText tokens text ending

def Imported.at (imported : Imported) (span : Span) : ImportDeclaration where
  span := span
  source := imported.source
  specifiers := imported.specifiers
  isTypeOnly := imported.isTypeOnly

/-- Declarations, and a text from some offset on that they may be written as. -/
inductive SourceText (typescript : Bool) : Nat → List ImportDeclaration → Text → Prop
  | finish {offset : Nat} {broken : Bool} {gap : Text} (hg : Trivia broken gap) :
      SourceText typescript offset [] gap
  | declaration {offset : Nat} {broken : Bool} {imported : Imported} {tokens : List Token}
      {declarations : List ImportDeclaration} {gap text ending rest : Text}
      (hg : Trivia broken gap) (hd : DeclarationTokens typescript imported tokens)
      (hs : StatementText tokens text ending)
      (later : SourceText typescript
        (offset + byteLength gap + byteLength text + byteLength ending) declarations rest) :
      SourceText typescript offset
        (imported.at ⟨offset + byteLength gap, offset + byteLength gap + byteLength text⟩ ::
          declarations)
        (gap ++ (text ++ (ending ++ rest)))

def Token.isKeyword (keyword : String) : Token → Bool
  | .word name => name.is keyword
  | _ => false

theorem isKeyword_wordToken (keyword : String) (name : Text) :
    (wordToken name).isKeyword keyword = (name == keyword.toList) :=
  rfl

namespace Lexes

variable {text rest : Text} {token : Token} {tokens : List Token}

theorem head (h : Lexes text (token :: tokens) rest) : (nextToken text).token = token := by
  cases h with
  | cons ht _ => exact ht

theorem tail (h : Lexes text (token :: tokens) rest) : Lexes (nextToken text).rest tokens rest := by
  cases h with
  | cons _ later => exact later

theorem readMark {mark : Mark} (h : Lexes text (.mark mark :: tokens) rest) :
    ∃ behind, DirectImports.readMark mark text = some behind ∧ Lexes behind tokens rest :=
  ⟨_, by simp [DirectImports.readMark, View.is, h.head], h.tail⟩

theorem readMark_none (h : Lexes text (token :: tokens) rest) (mark : Mark)
    (hne : token ≠ .mark mark) : DirectImports.readMark mark text = none := by
  have his : ¬(nextToken text).is mark = true := by
    rw [View.is_iff, h.head]
    exact hne
  simp [DirectImports.readMark, his]

theorem readKeyword_eq (h : Lexes text (token :: tokens) rest) (keyword : String) :
    readKeyword keyword text =
      if token.isKeyword keyword then some (nextToken text).rest else none := by
  have hw : (nextToken text).isWord keyword = token.isKeyword keyword := by
    rw [← h.head]
    rfl
  simp [readKeyword, hw]

theorem readKeyword {keyword : String} (h : Lexes text (keywordToken keyword :: tokens) rest) :
    ∃ behind, DirectImports.readKeyword keyword text = some behind ∧ Lexes behind tokens rest := by
  refine ⟨_, ?_, h.tail⟩
  simp [h.readKeyword_eq, keywordToken, isKeyword_wordToken]

theorem readKeyword_none (h : Lexes text (token :: tokens) rest) (keyword : String)
    (hne : token.isKeyword keyword = false) : DirectImports.readKeyword keyword text = none := by
  simp [h.readKeyword_eq, hne]

theorem readKeyword_name {name : Text} {keyword : String}
    (h : Lexes text (wordToken name :: tokens) rest) (hn : name = keyword.toList) :
    ∃ behind, DirectImports.readKeyword keyword text = some behind ∧ Lexes behind tokens rest := by
  subst hn
  exact h.readKeyword

theorem readKeyword_other {name : Text} {keyword : String}
    (h : Lexes text (wordToken name :: tokens) rest) (hn : name ≠ keyword.toList) :
    DirectImports.readKeyword keyword text = none :=
  h.readKeyword_none keyword (by simpa [isKeyword_wordToken] using hn)

theorem readString {value : Text} (h : Lexes text (.literal value :: tokens) rest) :
    ∃ behind, DirectImports.readString text = some (value, behind) ∧ Lexes behind tokens rest :=
  ⟨_, by simp [DirectImports.readString, h.head], h.tail⟩

theorem readString_none (h : Lexes text (token :: tokens) rest)
    (hne : ∀ value, token ≠ .literal value) : DirectImports.readString text = none := by
  unfold DirectImports.readString
  dsimp only
  rw [h.head]
  split
  next => exact absurd rfl (hne _)
  next => rfl

theorem readBinding {name : Text} (h : Lexes text (wordToken name :: tokens) rest)
    (hn : isReserved name = false) :
    ∃ behind, DirectImports.readBinding text = some (name, behind) ∧ Lexes behind tokens rest :=
  ⟨_, by simp [DirectImports.readBinding, h.head, wordToken, hn], h.tail⟩

theorem readBinding_none {mark : Mark} (h : Lexes text (.mark mark :: tokens) rest) :
    DirectImports.readBinding text = none := by
  simp [DirectImports.readBinding, h.head]

theorem readExportName {name : Text} (h : Lexes text (token :: tokens) rest)
    (hn : NameToken name token) :
    ∃ behind, DirectImports.readExportName text = some (name, behind) ∧
      Lexes behind tokens rest := by
  refine ⟨_, ?_, h.tail⟩
  cases hn with
  | word => simp [DirectImports.readExportName, h.head, wordToken]
  | literal => simp [DirectImports.readExportName, h.head]

theorem readExportName_none {mark : Mark} (h : Lexes text (.mark mark :: tokens) rest) :
    DirectImports.readExportName text = none := by
  simp [DirectImports.readExportName, h.head]

end Lexes

section

variable {typescript : Bool} {text rest : Text} {tokens more : List Token}

theorem readAlias_same {mark : Mark} (h : Lexes text (.mark mark :: more) rest) (name : Text)
    (isType : Bool) : readAlias name isType text = some (.named name name isType, text) := by
  simp [readAlias, h.readKeyword_none "as" rfl]

theorem readAlias_renamed {localName : Text}
    (h : Lexes text (keywordToken "as" :: wordToken localName :: more) rest) (name : Text)
    (isType : Bool) :
    ∃ behind, readAlias name isType text = some (.named name localName isType, behind) ∧
      Lexes behind more rest := by
  obtain ⟨afterAs, has, h⟩ := h.readKeyword
  obtain ⟨behind, hname, h⟩ := h.readExportName .word
  exact ⟨behind, by simp [readAlias, has, hname], h⟩

/-- Names behind `type` that are no modifier: it is itself the imported name. -/
theorem readAfterType_name {localName : Text} {mark : Mark} (typescript : Bool)
    (h : Lexes text (keywordToken "as" :: wordToken localName :: .mark mark :: more) rest) :
    ∃ behind, readAfterType typescript text = some (.named "type".toList localName false, behind) ∧
      Lexes behind (.mark mark :: more) rest := by
  obtain ⟨afterAs, has, h⟩ := h.readKeyword
  by_cases hl : localName = "as".toList
  · subst hl
    obtain ⟨behind, has', h⟩ := Lexes.readKeyword_name h rfl
    exact ⟨behind, by simp [readAfterType, readAfterTypeAs, has, has', h.readExportName_none], h⟩
  · have hnone := h.readKeyword_other hl
    obtain ⟨behind, hname, h⟩ := h.readExportName .word
    exact ⟨behind, by simp [readAfterType, readAfterTypeAs, has, hnone, hname], h⟩

theorem readAfterType_type {name localName : Text} {mark : Mark}
    (ha : AliasTokens name localName tokens) (h : Lexes text (tokens ++ .mark mark :: more) rest) :
    ∃ behind, readAfterType true text = some (.named name localName true, behind) ∧
      Lexes behind (.mark mark :: more) rest := by
  cases ha with
  | same hn =>
    by_cases hname : name = "as".toList
    · subst hname
      obtain ⟨behind, has, h⟩ := Lexes.readKeyword_name h rfl
      have hnone := h.readKeyword_none "as" rfl
      exact ⟨behind, by simp [readAfterType, readAfterTypeAs, has, hnone, h.readExportName_none], h⟩
    · have hnone := Lexes.readKeyword_other h hname
      obtain ⟨behind, hexport, h⟩ := Lexes.readExportName h .word
      exact ⟨behind, by simp [readAfterType, hnone, hexport, readAlias_same h], h⟩
  | @renamed _ token ht hl =>
    by_cases hkeyword : token.isKeyword "as" = true
    · cases ht with
      | literal => exact absurd hkeyword Bool.false_ne_true
      | word =>
        obtain rfl : name = "as".toList := by simpa [isKeyword_wordToken] using hkeyword
        obtain ⟨afterAs, has, h⟩ := Lexes.readKeyword_name h rfl
        obtain ⟨_, has', h⟩ := h.readKeyword
        obtain ⟨behind, hexport, h⟩ := h.readExportName .word
        exact ⟨behind, by simp [readAfterType, readAfterTypeAs, has, has', hexport], h⟩
    · have hnone := Lexes.readKeyword_none h "as" (eq_false_of_ne_true hkeyword)
      obtain ⟨_, hexport, h⟩ := Lexes.readExportName h ht
      obtain ⟨behind, halias, h⟩ := readAlias_renamed h name true
      exact ⟨behind, by simp [readAfterType, hnone, hexport, halias], h⟩

theorem AliasTokens.readSpecifier {name localName : Text} {mark : Mark}
    (ha : AliasTokens name localName tokens)
    (h : Lexes text (tokens ++ .mark mark :: more) rest) :
    ∃ behind, readSpecifier typescript text = some (.named name localName false, behind) ∧
      Lexes behind (.mark mark :: more) rest := by
  cases ha with
  | same hn =>
    have ht := Lexes.head h
    have hlater := Lexes.tail h
    refine ⟨_, ?_, hlater⟩
    by_cases hname : name = "type".toList
    · subst hname
      have hnone := hlater.readKeyword_none "as" rfl
      simp [DirectImports.readSpecifier, ht, wordToken, Word.is, readAfterType, hnone,
        hlater.readExportName_none]
    · have hword : (Word.mk name false).is "type" = false := by simpa [Word.is] using hname
      simp [DirectImports.readSpecifier, ht, wordToken, hword, readAlias_same hlater]
  | @renamed _ token hn hl =>
    have ht := Lexes.head h
    have hlater := Lexes.tail h
    obtain ⟨behind, halias, hbehind⟩ := readAlias_renamed hlater name false
    cases hn with
    | literal => exact ⟨behind, by simp [DirectImports.readSpecifier, ht, halias], hbehind⟩
    | word =>
      by_cases hname : name = "type".toList
      · subst hname
        obtain ⟨behind, hread, hbehind⟩ := readAfterType_name typescript hlater
        refine ⟨behind, ?_, hbehind⟩
        simp [DirectImports.readSpecifier, ht, wordToken, Word.is, hread]
      · have hword : (Word.mk name false).is "type" = false := by simpa [Word.is] using hname
        refine ⟨behind, ?_, hbehind⟩
        simp [DirectImports.readSpecifier, ht, wordToken, hword, halias]

theorem SpecifierTokens.read {specifier : Specifier} {mark : Mark}
    (hs : SpecifierTokens typescript specifier tokens)
    (h : Lexes text (tokens ++ .mark mark :: more) rest) :
    ∃ behind, readSpecifier typescript text = some (specifier, behind) ∧
      Lexes behind (.mark mark :: more) rest := by
  cases hs with
  | value ha => exact ha.readSpecifier h
  | type hts ha =>
    have ht := Lexes.head h
    obtain ⟨behind, hread, hbehind⟩ := readAfterType_type ha (Lexes.tail h)
    refine ⟨behind, ?_, hbehind⟩
    simp [readSpecifier, ht, keywordToken, wordToken, Word.is, hts, hread]

theorem SpecifierTokens.head {specifier : Specifier}
    (hs : SpecifierTokens typescript specifier tokens) :
    ∃ token later, tokens = token :: later ∧ ∀ mark, token ≠ .mark mark := by
  have hname {name : Text} {token : Token} (h : NameToken name token) (mark : Mark) :
      token ≠ .mark mark := by
    cases h <;> nofun
  cases hs with
  | value ha =>
    cases ha with
    | same => exact ⟨_, _, rfl, nofun⟩
    | renamed ht => exact ⟨_, _, rfl, hname ht⟩
  | type => exact ⟨_, _, rfl, nofun⟩

theorem ListTokens.read {specifiers : List Specifier} {fuel : Nat}
    (hs : ListTokens typescript specifiers tokens) (h : Lexes text (tokens ++ more) rest)
    (hf : text.length < fuel) :
    ∃ behind, readSpecifiers typescript fuel text = some (specifiers, behind) ∧
      Lexes behind more rest := by
  induction hs generalizing text fuel with
  | nil =>
    obtain ⟨fuel, rfl⟩ := Nat.exists_eq_add_one_of_ne_zero (Nat.ne_zero_of_lt hf)
    obtain ⟨behind, hclose, hbehind⟩ := Lexes.readMark h
    exact ⟨behind, by simp [readSpecifiers, hclose], hbehind⟩
  | last hs =>
    obtain ⟨fuel, rfl⟩ := Nat.exists_eq_add_one_of_ne_zero (Nat.ne_zero_of_lt hf)
    rw [List.append_assoc] at h
    obtain ⟨_, hread, hclosing⟩ := hs.read h
    obtain ⟨token, later, rfl, hne⟩ := hs.head
    have hopen := Lexes.readMark_none h .closeBrace (hne .closeBrace)
    have hcomma := Lexes.readMark_none hclosing .comma (by simp)
    obtain ⟨behind, hclose, hbehind⟩ := Lexes.readMark hclosing
    exact ⟨behind, by simp [readSpecifiers, hopen, hread, hcomma, hclose], hbehind⟩
  | next hs _ ih =>
    obtain ⟨fuel, rfl⟩ := Nat.exists_eq_add_one_of_ne_zero (Nat.ne_zero_of_lt hf)
    rw [List.append_assoc] at h
    obtain ⟨closing, hread, hclosing⟩ := hs.read h
    obtain ⟨token, later, rfl, hne⟩ := hs.head
    have hopen := Lexes.readMark_none h .closeBrace (hne .closeBrace)
    obtain ⟨others, hcomma, hothers⟩ := Lexes.readMark hclosing
    have hlt := (readSpecifier_passes hread).length_lt
    have hlt' := (readMark_passes hcomma rfl).length_lt
    have hlt'' : others.length < fuel := by omega
    obtain ⟨behind, hlater, hbehind⟩ := ih hothers hlt''
    exact ⟨behind, by simp [readSpecifiers, hopen, hread, hcomma, hlater], hbehind⟩

theorem BracedTokens.read {specifiers : List Specifier}
    (hs : BracedTokens typescript specifiers tokens) (h : Lexes text (tokens ++ more) rest) :
    ∃ behind, readBraced typescript text = some (specifiers, behind) ∧ Lexes behind more rest := by
  cases hs with
  | entire hn =>
    obtain ⟨_, hstar, h⟩ := Lexes.readMark h
    obtain ⟨_, has, h⟩ := Lexes.readKeyword h
    obtain ⟨behind, hname, hbehind⟩ := Lexes.readBinding h hn
    exact ⟨behind, by simp [readBraced, hstar, has, hname], hbehind⟩
  | named hl =>
    have hstar := Lexes.readMark_none h .star (by simp)
    obtain ⟨list, hopen, hlist⟩ := Lexes.readMark h
    obtain ⟨behind, hread, hbehind⟩ := hl.read hlist (Nat.lt_succ_self list.length)
    exact ⟨behind, by simp [readBraced, hstar, hopen, hread], hbehind⟩

theorem BracedTokens.head {specifiers : List Specifier}
    (hs : BracedTokens typescript specifiers tokens) :
    ∃ mark later, tokens = .mark mark :: later ∧ (mark = .star ∨ mark = .openBrace) := by
  cases hs with
  | entire => exact ⟨_, _, rfl, .inl rfl⟩
  | named => exact ⟨_, _, rfl, .inr rfl⟩

/-- Bindings are read up to the `from` behind them. -/
theorem BindingTokens.read {specifiers : List Specifier}
    (hs : BindingTokens typescript specifiers tokens)
    (h : Lexes text (tokens ++ keywordToken "from" :: more) rest) :
    ∃ behind, readBindings typescript text = some (specifiers, behind) ∧
      Lexes behind (keywordToken "from" :: more) rest := by
  cases hs with
  | braced hb =>
    obtain ⟨behind, hread, hbehind⟩ := hb.read h
    obtain ⟨mark, later, rfl, -⟩ := hb.head
    have hnone := Lexes.readBinding_none h
    exact ⟨behind, by simp [readBindings, hnone, hread], hbehind⟩
  | byDefault hn =>
    obtain ⟨behind, hname, hbehind⟩ := Lexes.readBinding h hn
    have hcomma := Lexes.readMark_none hbehind .comma (by simp [keywordToken, wordToken])
    exact ⟨behind, by simp [readBindings, hname, hcomma], hbehind⟩
  | both hn hb =>
    obtain ⟨_, hname, h⟩ := Lexes.readBinding h hn
    obtain ⟨_, hcomma, h⟩ := Lexes.readMark h
    obtain ⟨behind, hread, hbehind⟩ := hb.read h
    exact ⟨behind, by simp [readBindings, hname, hcomma, hread], hbehind⟩

/-- What stands behind a name that is no modifier. -/
structure EndsName (text : Text) : Prop where
  string : readString text = none
  type : typeModifies text = false
  source : sourceModifies text = false
  star : hasMark .star text = false

theorem endsName_comma (h : Lexes text (.mark .comma :: more) rest) : EndsName text := by
  have hfrom := h.readKeyword_none "from" rfl
  have hname := h.readBinding_none
  have hstar := h.readMark_none .star nofun
  have hopen := h.readMark_none .openBrace nofun
  exact {
    string := h.readString_none nofun
    type := by simp [typeModifies, hfrom, hname, hasMark, hstar, hopen]
    source := by simp [sourceModifies, hfrom, hname]
    star := by simp [hasMark, hstar] }

theorem endsName_from {source : Text} (h : Lexes text (fromTokens source ++ more) rest) :
    EndsName text := by
  obtain ⟨behind, hfrom, hbehind⟩ := Lexes.readKeyword h
  have hnone := Lexes.readKeyword_none hbehind "from" rfl
  have hcomma := Lexes.readMark_none hbehind .comma nofun
  have hstar := Lexes.readMark_none h .star nofun
  exact {
    string := Lexes.readString_none h nofun
    type := by simp [typeModifies, hfrom, hasKeyword, hasMark, hnone, hcomma]
    source := by simp [sourceModifies, hfrom, hasKeyword, hnone]
    star := by simp [hasMark, hstar] }

/-- A clause begins with a brace, a star or a name. -/
theorem BindingTokens.begins {specifiers : List Specifier} {source : Text}
    (hs : BindingTokens typescript specifiers tokens)
    (h : Lexes text (tokens ++ (fromTokens source ++ more)) rest) :
    ∃ token later, Lexes text (token :: later) rest ∧ ((∃ mark, token = .mark mark) ∨
      ∃ name, token = wordToken name ∧ EndsName (nextToken text).rest) := by
  cases hs with
  | braced hb =>
    obtain ⟨mark, later, rfl, -⟩ := hb.head
    exact ⟨_, _, h, .inl ⟨mark, rfl⟩⟩
  | byDefault => exact ⟨_, _, h, .inr ⟨_, rfl, endsName_from (Lexes.tail h)⟩⟩
  | both => exact ⟨_, _, h, .inr ⟨_, rfl, endsName_comma (Lexes.tail h)⟩⟩

theorem readPhase_name_first {name : Text} (h : Lexes text (wordToken name :: more) rest)
    (he : EndsName (nextToken text).rest) :
    readPhase typescript text = readBindings typescript text := by
  simp only [readPhase, h.readKeyword_eq, isKeyword_wordToken]
  by_cases hs : (name == "source".toList) = true
  · simp only [hs, if_true, he.source, Bool.false_eq_true, if_false]
  · by_cases hd : (name == "defer".toList) = true
    · simp only [hs, hd, if_true, he.star, Bool.false_eq_true, if_false]
    · simp only [hs, hd, Bool.false_eq_true, if_false]

theorem readModified_name_first {name : Text} (h : Lexes text (wordToken name :: more) rest)
    (he : EndsName (nextToken text).rest) :
    readModified typescript text =
      (readBindings typescript text).map fun (specifiers, behind) =>
        (⟨false, specifiers⟩, behind) := by
  simp only [readModified, h.readKeyword_eq, isKeyword_wordToken]
  by_cases ht : (name == "type".toList) = true
  · simp only [ht, if_true, he.type, Bool.false_eq_true, if_false]
    cases readBindings typescript text <;> rfl
  · simp only [ht, Bool.false_eq_true, if_false, readPhase_name_first h he]
    cases readBindings typescript text <;> rfl

/-- The clause of a declaration for values, whatever words its names are. -/
theorem BindingTokens.readClause {specifiers : List Specifier} {source : Text}
    (hs : BindingTokens typescript specifiers tokens)
    (h : Lexes text (tokens ++ (fromTokens source ++ more)) rest) :
    ∃ behind, readClause typescript text = some (⟨false, specifiers⟩, behind) ∧
      Lexes behind (.literal source :: more) rest := by
  obtain ⟨_, hread, hfrom⟩ := hs.read h
  obtain ⟨behind, hkeyword, hbehind⟩ := hfrom.readKeyword
  refine ⟨behind, ?_, hbehind⟩
  obtain ⟨token, later, hfirst, ⟨mark, rfl⟩ | ⟨name, rfl, hends⟩⟩ := hs.begins h
  · have hnone (keyword : String) := hfirst.readKeyword_none keyword rfl
    have hstring := hfirst.readString_none (by simp)
    simp [DirectImports.readClause, hstring, isBareFrom, readModified, readPhase, hnone, hread,
      hkeyword]
  · have hstring := hfirst.readString_none (by simp [wordToken])
    have hbare : isBareFrom text = false := by
      simp only [isBareFrom, hfirst.readKeyword_eq]
      split <;> simp [hends.string]
    simp [DirectImports.readClause, hstring, hbare, readModified_name_first hfirst hends, hread,
      hkeyword]

/-- `type` is a modifier before these bindings. -/
theorem BindingTokens.typeModifies {specifiers : List Specifier} {source : Text}
    (hs : BindingTokens typescript specifiers tokens)
    (h : Lexes text (tokens ++ (fromTokens source ++ more)) rest) : typeModifies text = true := by
  cases hs with
  | braced hb =>
    obtain ⟨mark, later, rfl, hmark⟩ := hb.head
    have hfrom := Lexes.readKeyword_none h "from" rfl
    obtain ⟨_, hread, -⟩ := Lexes.readMark h
    rcases hmark with rfl | rfl
    all_goals simp [DirectImports.typeModifies, hfrom, hasMark, hread]
  | @byDefault name hn =>
    by_cases hname : name = "from".toList
    · subst hname
      obtain ⟨_, hfrom, h⟩ := Lexes.readKeyword_name h rfl
      obtain ⟨_, hfrom', -⟩ := Lexes.readKeyword h
      simp [DirectImports.typeModifies, hfrom, hasKeyword, hfrom']
    · have hfrom := Lexes.readKeyword_other h hname
      obtain ⟨_, hread, -⟩ := Lexes.readBinding h hn
      simp [DirectImports.typeModifies, hfrom, hread]
  | @both name _ tokens hn hb =>
    by_cases hname : name = "from".toList
    · subst hname
      obtain ⟨_, hfrom, h⟩ := Lexes.readKeyword_name h rfl
      obtain ⟨_, hcomma, -⟩ := Lexes.readMark h
      simp [DirectImports.typeModifies, hfrom, hasMark, hcomma]
    · have hfrom := Lexes.readKeyword_other h hname
      obtain ⟨_, hread, -⟩ := Lexes.readBinding h hn
      simp [DirectImports.typeModifies, hfrom, hread]

theorem DeclarationTokens.read {imported : Imported}
    (hd : DeclarationTokens typescript imported tokens) (h : Lexes text (tokens ++ more) rest) :
    ∃ afterImport beforeSource source behind,
      readKeyword "import" text = some afterImport ∧
      readClause typescript afterImport =
        some (⟨imported.isTypeOnly, imported.specifiers⟩, beforeSource) ∧
      readString beforeSource = some (source, behind) ∧ imported.source = some source ∧
      Lexes behind more rest := by
  cases hd with
  | bare =>
    obtain ⟨afterImport, himport, h⟩ := Lexes.readKeyword h
    obtain ⟨behind, hstring, hbehind⟩ := Lexes.readString h
    exact ⟨_, _, _, behind, himport, by simp [readClause, hstring], hstring, rfl, hbehind⟩
  | values hb =>
    obtain ⟨afterImport, himport, h⟩ := Lexes.readKeyword h
    obtain ⟨beforeSource, hclause, h⟩ := hb.readClause (by simpa using h)
    obtain ⟨behind, hstring, hbehind⟩ := h.readString
    exact ⟨_, _, _, behind, himport, hclause, hstring, rfl, hbehind⟩
  | types ht hb _ =>
    subst ht
    obtain ⟨afterImport, himport, h⟩ := Lexes.readKeyword h
    have hstring := Lexes.readString_none h (by simp [keywordToken, wordToken])
    have hbare : isBareFrom afterImport = false := by
      simp [isBareFrom, Lexes.readKeyword_none h "from" rfl]
    obtain ⟨bindings, htype, h⟩ := Lexes.readKeyword h
    rw [List.append_eq, List.append_assoc] at h
    have hmodifies := hb.typeModifies h
    obtain ⟨_, hread, h⟩ := hb.read h
    obtain ⟨beforeSource, hfrom, h⟩ := h.readKeyword
    obtain ⟨behind, hsource, hbehind⟩ := Lexes.readString h
    refine ⟨_, beforeSource, _, behind, himport, ?_, hsource, rfl, hbehind⟩
    simp [readClause, hstring, hbare, readModified, htype, hmodifies, hread, hfrom]

theorem DeclarationTokens.head {imported : Imported}
    (hd : DeclarationTokens typescript imported tokens) :
    ∃ later, tokens = keywordToken "import" :: later := by
  cases hd <;> exact ⟨_, rfl⟩

theorem DeclarationTokens.last {imported : Imported}
    (hd : DeclarationTokens typescript imported tokens) :
    ∃ source, tokens.getLast? = some (.literal source) := by
  cases hd with
  | bare => exact ⟨_, rfl⟩
  | @values source | @types source =>
    refine ⟨source, ?_⟩
    rw [← List.cons_append]
    simp [fromTokens, List.getLast?_cons]

theorem StatementText.tokensText {imported : Imported} {ending : Text}
    (hs : StatementText tokens text ending) (hd : DeclarationTokens typescript imported tokens) :
    ∃ last, TokensText (tokens ++ last) text ∧
      (∀ token ∈ (tokens ++ last).getLast?, token.endsItself = true) ∧
      (last = [.mark .semicolon] ∧ ending = [] ∨ last = [] ∧ Trivia true ending) := by
  cases hs with
  | semicolon h =>
    refine ⟨_, h, ?_, .inl ⟨rfl, rfl⟩⟩
    intro token ht
    obtain rfl : .mark .semicolon = token := by simpa using ht
    rfl
  | lineEnd h he =>
    obtain ⟨source, hlast⟩ := hd.last
    rw [← List.append_nil tokens] at h hlast
    refine ⟨[], h, ?_, .inr ⟨rfl, he⟩⟩
    rw [hlast]
    intro token ht
    obtain rfl := Option.some.inj ht
    rfl

theorem StatementText.trivia {ending : Text} (hs : StatementText tokens text ending) :
    ∃ broken, Trivia broken ending := by
  cases hs with
  | semicolon => exact ⟨false, .nil⟩
  | lineEnd _ he => exact ⟨true, he⟩

end

theorem TokensText.nextToken {token : Token} {tokens : List Token} {text : Text}
    (h : TokensText (token :: tokens) text)
    (hl : ∀ last ∈ (token :: tokens).getLast?, last.endsItself = true) (behind : Text) :
    ∃ rest, nextToken (text ++ behind) = ⟨⟨false, token⟩, text ++ behind, rest⟩ := by
  cases h with
  | last h => exact ⟨_, h.nextToken (Token.isEndedBy_of_endsItself (hl _ rfl) behind)⟩
  | next h hg ht later =>
    have hread := h.nextToken (Token.isEndedBy_next hg ht later behind)
    rw [List.append_assoc, List.append_assoc]
    exact ⟨_, hread⟩

section

variable {typescript : Bool} {imported : Imported} {tokens : List Token} {text ending : Text}

theorem StatementText.nextToken (hs : StatementText tokens text ending)
    (hd : DeclarationTokens typescript imported tokens) (behind : Text) :
    ∃ rest, nextToken (text ++ behind) =
      ⟨⟨false, keywordToken "import"⟩, text ++ behind, rest⟩ := by
  obtain ⟨last, ht, hl, -⟩ := hs.tokensText hd
  obtain ⟨later, rfl⟩ := hd.head
  exact ht.nextToken hl behind

/-- Behind the end of a line, what follows a declaration is no part of it. -/
theorem SourceText.endsLine {offset : Nat} {declarations : List ImportDeclaration} {source : Text}
    (h : SourceText typescript offset declarations source) (he : Trivia true ending) :
    readAttributeKeyword (ending ++ source) = none ∧
      readEnd (ending ++ source) = some (ending ++ source) := by
  have hnext : (nextToken (ending ++ source)).broken = true ∧
      ((nextToken (ending ++ source)).token = .finish ∨
        (nextToken (ending ++ source)).token = keywordToken "import") := by
    cases h with
    | finish hg =>
      have hnil : nextToken [] = ⟨⟨false, .finish⟩, [], []⟩ := rfl
      have hread := (he.append hg).nextToken hnil
      rw [List.append_nil] at hread
      rw [hread]
      exact ⟨rfl, .inl rfl⟩
    | @declaration _ _ _ _ _ gap text ending' rest hg hd hs later =>
      obtain ⟨behind, hread⟩ := hs.nextToken hd (ending' ++ rest)
      have hread := (he.append hg).nextToken hread
      rw [List.append_assoc] at hread
      rw [hread]
      exact ⟨rfl, .inr rfl⟩
  obtain ⟨hb, hf | hi⟩ := hnext
  · constructor
    · simp [readAttributeKeyword, View.isWord, hf]
    · rw [readEnd_here]
      exact ⟨by simp [View.is, hf], .inl hb⟩
  · constructor
    · simp [readAttributeKeyword, View.isWord, hi, keywordToken, wordToken, Word.is]
    · rw [readEnd_here]
      exact ⟨by simp [View.is, hi, keywordToken, wordToken], .inl hb⟩

theorem StatementText.readImport {offset : Nat} {declarations : List ImportDeclaration}
    {source : Text} (hs : StatementText tokens text ending)
    (hd : DeclarationTokens typescript imported tokens)
    (later : SourceText typescript offset declarations source) :
    readImport typescript (text ++ (ending ++ source)) =
      some (imported.at ⟨0, byteLength text⟩, ending ++ source) := by
  obtain ⟨last, ht, hl, hends⟩ := hs.tokensText hd
  have hlexes := ht.lexes .nil hl (ending ++ source)
  obtain ⟨afterImport, beforeSource, value, behind, himport, hclause, hstring, hvalue, hbehind⟩ :=
    hd.read hlexes
  have hend : readAttributeClause behind = some behind ∧
      readEnd behind = some (ending ++ source) := by
    rcases hends with ⟨rfl, rfl⟩ | ⟨rfl, he⟩
    · have hsemicolon := hbehind.head
      have hrest : (DirectImports.nextToken behind).rest = source := by
        have htail := hbehind.tail
        cases htail with
        | nil => rfl
      constructor
      · simp [readAttributeClause, readAttributeKeyword, View.isWord, hsemicolon]
      · simp [readEnd, View.is, hsemicolon, hrest]
    · cases hbehind with
      | nil =>
        obtain ⟨hnone, hstop⟩ := later.endsLine he
        exact ⟨by simp [readAttributeClause, hnone], hstop⟩
  simp only [List.nil_append] at himport
  simp [DirectImports.readImport, himport, readAfterImport, hclause, hstring, hend.1, hend.2,
    Imported.at, hvalue]

end

theorem SourceText.head_ne {typescript : Bool} {offset : Nat}
    {declarations : List ImportDeclaration} {source : Text}
    (h : SourceText typescript offset declarations source) : source.head? ≠ some '#' := by
  have hgap {broken : Bool} {gap : Text} (hg : Trivia broken gap) (hne : gap ≠ []) (rest : Text) :
      (gap ++ rest).head? ≠ some '#' := by
    obtain ⟨c, later, rfl, -, -, -, hc⟩ := hg.head hne
    simpa using hc
  cases h with
  | @finish _ _ gap hg =>
    by_cases hne : source = []
    · simp [hne]
    · simpa using hgap hg hne []
  | @declaration _ _ _ _ _ gap text ending rest hg hd hs later =>
    by_cases hne : gap = []
    · obtain ⟨last, ht, -, -⟩ := hs.tokensText hd
      obtain ⟨tokens, rfl⟩ := hd.head
      obtain ⟨first, behind, hf, rfl⟩ := ht.head
      cases hf
      simp [hne]
    · exact hgap hg hne _

/-- A written source is taken apart into its declarations, whatever gap stands in front of it. -/
theorem SourceText.reads {language : Language} {offset : Nat}
    {declarations : List ImportDeclaration} {source : Text}
    (h : SourceText language.typescript offset declarations source) {broken : Bool}
    {before : Text} (hb : Trivia broken before) {base : Nat}
    (ho : base + byteLength before = offset) :
    ∃ pieces, Reads language (before ++ source) pieces ∧
      declarationsFrom base pieces = declarations := by
  induction h generalizing broken before base with
  | @finish offset _ gap hg =>
    have hnil : IsTrimmed [] := fun _ => rfl
    have hskip := (hb.append hg).skip hnil
    rw [List.append_nil] at hskip
    refine ⟨[.gap (before ++ gap)], .finish ?_, rfl⟩
    rw [hskip]
    rfl
  | @declaration offset _ imported tokens declarations gap text ending rest hg hd hs later ih =>
    obtain ⟨_, he⟩ := hs.trivia
    have hoffset : base + byteLength (before ++ gap) + byteLength text + byteLength ending =
        offset + byteLength gap + byteLength text + byteLength ending := by
      rw [byteLength_append]
      omega
    obtain ⟨pieces, hread, hdeclarations⟩ := ih he hoffset
    obtain ⟨_, hnext⟩ := hs.nextToken hd (ending ++ rest)
    have hstart : (skipTrivia (before ++ gap ++ (text ++ (ending ++ rest)))).2 =
        text ++ (ending ++ rest) :=
      congrArg Lexed.start ((hb.append hg).nextToken hnext)
    have hpieces := Reads.declaration hstart (hs.readImport hd later) hread
    rw [List.append_assoc] at hpieces
    refine ⟨_, hpieces, ?_⟩
    simp only [declarationsFrom, hdeclarations, List.cons.injEq, and_true]
    simp only [ImportDeclaration.shift, Imported.at, Span.shift, byteLength_append, Nat.add_zero,
      ← ho, Nat.add_assoc]

/-- Reading inverts writing: a source in which declarations are written in any way, in the language
of its path, has just these declarations where they are written. -/
theorem importDeclarations_written {path source : Text} {declarations : List ImportDeclaration}
    (h : SourceText (Language.ofPath path).typescript 0 declarations source) :
    importDeclarations path source = .ok declarations := by
  obtain ⟨pieces, hread, hdeclarations⟩ := h.reads .nil (Nat.add_zero 0)
  have hskip := skipInterpreter_of_head h.head_ne
  have hp := pieces?_eq_some_iff.mpr ⟨[], _, _, (List.nil_append _).symm, hskip, rfl, hread⟩
  rw [importDeclarations_of_pieces hp]
  simp only [declarationsFrom, byteLength]
  rw [hdeclarations]

/-- A default import that is named `type`, and a type-only one behind a comment. -/
def writtenSource : Text :=
  "import type,{A as as,}from'\\x6c'//\nimport type*as n from\"m\";".toList

def writtenDeclarations : List ImportDeclaration :=
  [⟨⟨0, 32⟩, some ['l'], [.byDefault "type".toList, .named ['A'] "as".toList false], false⟩,
    ⟨⟨35, 60⟩, some ['m'], [.entire ['n']], true⟩]

theorem writtenSource_text : SourceText true 0 writtenDeclarations writtenSource := by
  have hblank : Trivia false [' '] := .blank rfl .nil
  have hcomment : Trivia true ('/' :: '/' :: ([] ++ ['\n'])) := .line nofun rfl .nil
  have hopen : TokenText (.mark .openBrace) ['\x7b'] := .mark (by decide)
  have hclose : TokenText (.mark .closeBrace) ['\x7d'] := .mark (by decide)
  have hcomma : TokenText (.mark .comma) [','] := .mark (by decide)
  have hstar : TokenText (.mark .star) ['*'] := .mark (by decide)
  have hsemicolon : TokenText (.mark .semicolon) [';'] := .mark (by decide)
  have hl : TokenText (.literal ['l']) ['\'', '\\', 'x', '6', 'c', '\''] :=
    .literal (.inr rfl) (.escape (.pair rfl rfl rfl) .nil)
  have hm : TokenText (.literal ['m']) ['"', 'm', '"'] :=
    .literal (.inl rfl) (.plain (by decide) (by decide) (by decide) (by decide) .nil)
  have hfirst : TokensText (keywordToken "import" :: ([wordToken "type".toList, .mark .comma,
      .mark .openBrace, wordToken ['A'], keywordToken "as", wordToken "as".toList, .mark .comma,
      .mark .closeBrace] ++ fromTokens ['l'])) _ :=
    .next (.word (by decide +kernel)) hblank nofun <|
    .next (.word (by decide +kernel)) .nil (fun _ => rfl) <|
    .next hcomma .nil (fun _ => rfl) <| .next hopen .nil (fun _ => rfl) <|
    .next (.word (by decide +kernel)) hblank nofun <|
    .next (.word (by decide +kernel)) hblank nofun <|
    .next (.word (by decide +kernel)) .nil (fun _ => rfl) <|
    .next hcomma .nil (fun _ => rfl) <| .next hclose .nil (fun _ => rfl) <|
    .next (.word (by decide +kernel)) .nil (fun _ => rfl) <| .last hl
  have hsecond : TokensText (keywordToken "import" :: keywordToken "type" ::
      ([.mark .star, keywordToken "as", wordToken ['n']] ++ fromTokens ['m']) ++
      [.mark .semicolon]) _ :=
    .next (.word (by decide +kernel)) hblank nofun <|
    .next (.word (by decide +kernel)) .nil (fun _ => rfl) <|
    .next hstar .nil (fun _ => rfl) <| .next (.word (by decide +kernel)) hblank nofun <|
    .next (.word (by decide +kernel)) hblank nofun <|
    .next (.word (by decide +kernel)) .nil (fun _ => rfl) <|
    .next hm .nil (fun _ => rfl) <| .last hsemicolon
  have hlist : ListTokens true [.named ['A'] "as".toList false] _ :=
    .next (.value (.renamed .word rfl)) .nil
  have hdefault : BindingTokens true [.byDefault "type".toList, _] _ := .both rfl (.named hlist)
  have hentire : BindingTokens true [.entire ['n']] _ := .braced (.entire rfl)
  have hlater (offset : Nat) : SourceText true offset _ _ :=
    .declaration .nil (.types rfl hentire (by decide)) (.semicolon hsecond)
      (.finish .nil)
  have h : SourceText true 0 _ _ :=
    .declaration .nil (.values hdefault) (.lineEnd hfirst hcomment) (hlater _)
  exact cast (congr (congrArg (SourceText true 0) (by decide +kernel)) (by decide +kernel)) h

theorem writtenSource_read :
    importDeclarations "t.ts".toList writtenSource = .ok writtenDeclarations :=
  importDeclarations_written writtenSource_text

/-- The halves of a character, one of them in braces. -/
def halvesSource : Text :=
  "import \"\\ud83d\\u\x7bde00\x7d\";".toList

/-- Not every writing is read back: halves of a character join only where each is written in four
digits. -/
theorem halvesSource_misread :
    importDeclarations "t.ts".toList halvesSource =
      .ok [⟨⟨0, 24⟩, some "\ufffdd83d\ufffdde00".toList, [], false⟩] := by
  have hp : pieces? (Language.ofPath "t.ts".toList) halvesSource = some [.gap [], .gap [],
      .declaration halvesSource
        ⟨⟨0, 24⟩, some "\ufffdd83d\ufffdde00".toList, [], false⟩, .gap []] := by
    decide +kernel
  exact importDeclarations_of_pieces hp

end DirectImports
