import DirectImports.Proofs.SharedGrammar

/-! The beginning of an import declaration. A text that is one in either language is no other
statement in any: what else begins with `import` is a call, or gives another name to something. -/

namespace DirectImports

theorem Closes.next {text rest : Text} {word : Word} (h : Closes text rest)
    (hw : (nextToken text).token = .word word) : Closes (nextToken text).rest rest := by
  obtain ⟨last, hl, he, hr⟩ := h
  cases hl with
  | refl =>
    rw [hw] at he
    cases he
  | next hi later => exact ⟨last, later, he, hr⟩

/-- No equals sign stands in an import declaration. -/
theorem Closes.not_equals {text rest : Text} (h : Closes text rest) :
    (nextToken text).is .equals = false := by
  refine eq_false_of_ne_true fun he => ?_
  have hi := h.passes.1
  rw [View.is_iff.mp he] at hi
  cases hi

theorem View.exists_word_of_isName {view : View} (h : view.isName = true) :
    ∃ word, view.token = .word word := by
  unfold View.isName at h
  split at h
  next word hw => exact ⟨word, hw⟩
  next => cases h

namespace SourceReader

section Steps

variable {α β : Type} {horizon : Horizon} {setting : Setting} {lexed : Lexed}

theorem bind_run (reader : SourceReader α) (next : α → SourceReader β) :
    (reader >>= next).run horizon setting lexed =
      (reader.run horizon setting lexed).andThen fun result =>
        (next result).run horizon setting :=
  rfl

theorem discard_run {reader : SourceReader α} {result : α} {place : Lexed}
    (h : reader.run horizon setting lexed = .done result place) :
    (discard reader).run horizon setting lexed = .done () place := by
  change (reader.run horizon setting lexed).andThen _ = _
  rw [h]
  rfl

theorem sees_run (test : View → Bool) :
    (sees test).run horizon setting lexed = .done (test lexed.toView) lexed :=
  rfl

theorem seesWord_run (keyword : String) :
    (seesWord keyword).run horizon setting lexed = .done (lexed.isWord keyword) lexed :=
  rfl

theorem and_run {first second : SourceReader Bool} {b : Bool}
    (h : first.run horizon setting lexed = .done b lexed) :
    (first <&&> second).run horizon setting lexed =
      if b then second.run horizon setting lexed else .done false lexed := by
  rw [andM, bind_run, h]
  cases b <;> rfl

theorem name_refuses (h : lexed.isName = false) : name.run horizon setting lexed = .refused := by
  rw [name, bind_run, sees_run, Reading.andThen, bind_run, h]
  rfl

theorem expect_refuses {mark : Mark} (h : lexed.is mark = false) :
    (expect mark).run horizon setting lexed = .refused := by
  rw [expect, takes, advanceIf, bind_run, bind_run, seesMark, sees_run, h]
  rfl

theorem look_run : look.run horizon setting lexed = .done lexed.toView lexed :=
  rfl

theorem statement_import {word : Word} {isBody : Bool} (hw : lexed.token = .word word)
    (h : word.text = "import".toList) :
    (statement isBody).run horizon setting lexed = importStatement.run horizon setting lexed := by
  have hkeyword : (keywordStatements.find? fun (entry : String × SourceReader Unit) =>
      word.is entry.1) = some ("import", importStatement) := by
    simp [keywordStatements, Word.is, h]
  rw [statement, bind_run, look_run, Reading.andThen, hw]
  dsimp only
  rw [hkeyword]

section Whole

variable (hc : horizon.isCut = false)
include hc

/-- Where a text is not cut off, there is always a next token. -/
theorem advance_run : advance.run horizon setting lexed = .done () lexed.next := by
  simp [advance, goes, hc]

theorem behind_run (reader : SourceReader α) :
    (behind reader).run horizon setting lexed =
      (reader.run horizon setting lexed.next).andThen fun result _ => .done result lexed := by
  simp only [behind, ahead, bind_run, advance_run hc, Reading.andThen]

theorem advanceIf_run {condition : SourceReader Bool} {b : Bool}
    (h : condition.run horizon setting lexed = .done b lexed) :
    (advanceIf condition).run horizon setting lexed =
      .done b (if b then lexed.next else lexed) := by
  rw [advanceIf, bind_run, h, Reading.andThen]
  cases b with
  | false => rfl
  | true =>
    rw [if_pos rfl, bind_run, advance_run hc]
    rfl

theorem name_run (h : lexed.isName = true) :
    name.run horizon setting lexed = .done () lexed.next := by
  rw [name, bind_run, sees_run, Reading.andThen, bind_run, h]
  exact advance_run hc

/-- A name with no equals sign behind it is given to nothing. -/
theorem aliasRest_refuses (h : lexed.isName = true → lexed.next.is .equals = false) :
    aliasRest.run horizon setting lexed = .refused := by
  rw [aliasRest, bind_run]
  cases hn : lexed.isName with
  | false =>
    rw [name_refuses hn]
    rfl
  | true =>
    rw [name_run hc hn, Reading.andThen, bind_run, expect_refuses (h hn)]
    rfl

theorem importAlias_refuses {rest : Text} (h : Closes lexed.rest rest) :
    importAlias.run horizon setting lexed = .refused := by
  have hcondition : (seesWord "type" <&&> behind (sees View.isName)).run horizon setting
      lexed.next = .done (lexed.next.isWord "type" && lexed.next.next.isName) lexed.next := by
    rw [and_run (seesWord_run _), behind_run hc, sees_run]
    cases lexed.next.isWord "type" <;> rfl
  rw [importAlias, bind_run, advance_run hc, Reading.andThen, bind_run,
    discard_run (advanceIf_run hc hcondition), Reading.andThen]
  split
  next ht =>
    obtain ⟨word, hw, -⟩ := View.isWord_iff.mp (Bool.and_eq_true_iff.mp ht).1
    refine aliasRest_refuses hc fun hn => ?_
    obtain ⟨other, ho⟩ := View.exists_word_of_isName hn
    exact ((h.next hw).next ho).not_equals
  next =>
    refine aliasRest_refuses hc fun hn => ?_
    obtain ⟨word, hw⟩ := View.exists_word_of_isName hn
    exact (h.next hw).not_equals

theorem attempt_importAlias {rest : Text} (h : Closes lexed.rest rest) :
    (attempt importAlias).run horizon setting lexed = .done none lexed := by
  simp only [attempt, importAlias_refuses hc h]

theorem importOrAlias_refuses {rest : Text} (h : Closes lexed.rest rest)
    (hr : readImport setting.language.typescript lexed.start = none) :
    importOrAlias.run horizon setting lexed = .refused := by
  rw [importOrAlias, bind_run, attempt_importAlias hc h, Reading.andThen]
  have hstep : importStep setting.language.typescript lexed = none := by
    rw [importStep, hr, Option.map_none]
  have htypescript : typescript.run horizon setting lexed =
      .done setting.language.typescript lexed := rfl
  rw [Option.isNone_none, if_pos rfl, bind_run, htypescript, Reading.andThen]
  simp [goes, hstep, hc]

theorem behind_import {rest : Text} (h : Closes lexed.rest rest) :
    (behind (seesOneOf [.openParen, .dot])).run horizon setting lexed = .done false lexed := by
  rw [behind_run hc, seesOneOf, sees_run, Reading.andThen]
  exact congrArg (Reading.done · lexed) h.not_opens

theorem importStatement_refuses {rest : Text} (h : Closes lexed.rest rest)
    (hr : readImport setting.language.typescript lexed.start = none) :
    importStatement.run horizon setting lexed = .refused := by
  rw [importStatement, bind_run, behind_import hc h, Reading.andThen]
  exact importOrAlias_refuses hc h hr

end Whole

end Steps

end SourceReader

theorem statementLength?_import {language : Language} {text rest : Text} {word : Word}
    (hw : (nextToken text).token = .word word) (h : word.text = "import".toList)
    (hr : readImport language.typescript (nextToken text).start = none)
    (hc : Closes (nextToken text).rest rest) : statementLength? language text = none := by
  obtain ⟨depth, hdepth⟩ : ∃ depth, 20 * (text.length + 1) = depth + 1 :=
    Nat.exists_eq_add_one_of_ne_zero (by omega)
  have hrefused : SourceReader.importStatement.run
      ⟨phrasesFor (text.length + 2) false depth, text.length + 2, false⟩ (outermostSetting language)
      (nextToken text) = .refused := SourceReader.importStatement_refuses rfl hc hr
  rw [statementLength?, readStatement, hdepth, phrasesFor, Phrase.reader, SourceReader.bind_run,
    SourceReader.statement_import hw h, hrefused]
  rfl

/-- Where one language reads an import declaration, each language reads this or nothing. -/
theorem beginning?_import {language : Language} {typescript : Bool} {text behind : Text}
    {declaration : ImportDeclaration} {beginning : Beginning} (ht : IsTrimmed text)
    (h : readImport typescript text = some (declaration, behind))
    (hb : beginning? language text = some beginning) :
    readImport language.typescript text = some (declaration, behind) := by
  cases hr : readImport language.typescript text with
  | some found => rw [readImport_agree h hr]
  | none =>
    obtain ⟨clause, source, u, hk, ha, -⟩ := readImport_eq h
    obtain ⟨⟨word, hw, hword⟩, rfl⟩ := readKeyword_eq hk
    have hc := readAfterImport_closes ha
    have hlength : statementLength? language text = none :=
      statementLength?_import hw hword (by rw [ht.start, hr]) hc
    have hend : (nextToken text).isEnd = false := by simp [View.isEnd, hw]
    simp [beginning?, importHere?, ht.start, hend, hr, hlength] at hb

end DirectImports
