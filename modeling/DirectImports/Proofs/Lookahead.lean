import DirectImports.Proofs.ImportStart

/-! How far the reader of a statement looks. A statement that is read in a text which is cut off
behind it is read to the same place however that text goes on. -/

namespace DirectImports

theorem Lexed.extend_inj {more : Text} {a b : Lexed} (h : a.extend more = b.extend more) :
    a = b := by
  obtain ⟨view, start, rest⟩ := a
  obtain ⟨view', start', rest'⟩ := b
  simpa [Lexed.extend] using h

namespace Reading

variable {α : Type} {more : Text} {near : Reading α}

theorem Foretells.eq_done {result : α} {place : Lexed}
    (h : near.Foretells more (.done result (place.extend more))) :
    near = .unsettled ∨ near = .done result place := by
  refine h.imp_right fun he => ?_
  cases near with
  | done found behind =>
    obtain ⟨rfl, hp⟩ := Reading.done.inj he
    rw [Lexed.extend_inj hp]
  | refused | unsettled => cases he

end Reading

/-- By induction on the depth: a reader of one phrase tells of a text that is cut off only what
holds of the whole text, if the readers of the phrases in it do. -/
theorem phrasesFor_foretells {limit limit' depth depth' : Nat} (hl : limit ≤ limit')
    (hd : depth ≤ depth') (more : Text) (phrase : Phrase) (setting : Setting) (lexed : Lexed) :
    (phrasesFor limit true depth phrase setting lexed).Foretells more
      (phrasesFor limit' false depth' phrase setting (lexed.extend more)) := by
  induction depth generalizing depth' phrase setting lexed with
  | zero => exact .unsettled
  | succ depth ih =>
    obtain ⟨depth', rfl⟩ := Nat.exists_eq_add_one_of_ne_zero (Nat.ne_zero_of_lt hd)
    refine phrase.reader.foretells ⟨rfl, rfl, hl, ?_⟩ setting lexed
    exact fun phrase setting lexed => ih (Nat.le_of_succ_le_succ hd) phrase setting lexed

variable {language : Language} {text : Text} {length : Nat}

theorem readStatement_foretells (hs : (nextToken text).isSettled = true) (more : Text) :
    (readStatement true language text).Foretells more
      (readStatement false language (text ++ more)) := by
  unfold readStatement
  rw [nextToken_settled hs, List.length_append]
  exact phrasesFor_foretells (by omega) (by omega) more _ _ _

theorem Reading.length?_extend {α : Type} {reading : Reading α}
    (h : reading.length? text = some length) (more : Text) :
    (reading.extend more).length? (text ++ more) = some length := by
  cases reading with
  | done result behind =>
    obtain rfl := Option.some.inj h
    simp only [Reading.extend, Reading.length?, Lexed.extend, List.length_append]
    congr 1
    omega
  | refused | unsettled => cases h

/-- A statement that is read before a cut has its length in any text that goes on there. -/
theorem statementLength?_append (h : settledLength? language text = some length) (more : Text) :
    statementLength? language (text ++ more) = some length := by
  obtain ⟨hs, h⟩ := Option.ite_none_right_eq_some.mp h
  have hforetells : (readStatement true language text).Foretells more _ :=
    readStatement_foretells hs more
  rcases hforetells with hn | hf
  · rw [hn] at h
    cases h
  · rw [statementLength?, hf]
    exact Reading.length?_extend h more

section

open SourceReader

variable {near far : Horizon} {setting : Setting} {lexed : Lexed} {more rest : Text}

theorem SourceReader.behind_sees_done {test : View → Bool} {b : Bool} {place : Lexed}
    (h : (behind (sees test)).run near setting lexed = .done b place) :
    test lexed.next.toView = b := by
  have hadvance : advance.run near setting lexed = .unsettled ∨
      advance.run near setting lexed = .done () lexed.next := by
    simp only [advance, goes]
    split
    · exact .inl rfl
    · exact .inr rfl
  simp only [behind, ahead, bind_run] at h
  rcases hadvance with ha | ha
  · rw [ha] at h
    cases h
  · rw [ha] at h
    exact (Reading.done.inj h).1

/-- Where an import stands that is none before a cut, the reader looks behind the cut. -/
theorem SourceReader.importStatement_unsettled (h : near.Foretells more far)
    (hc : Closes (lexed.extend more).rest rest)
    (hi : importHere? setting.language lexed = none) (hw : lexed.isWord "import" = true) :
    importStatement.run near setting lexed = .unsettled := by
  have hexpression := (behind (seesOneOf [.openParen, .dot])).foretells h setting lexed
  rw [behind_import h.isWhole hc] at hexpression
  rw [importStatement, bind_run]
  rcases hexpression.eq_done with hn | hn
  · rw [hn]
    rfl
  · have hnext : lexed.next.isOneOf [.openParen, .dot] = false := behind_sees_done hn
    have hr : readImport setting.language.typescript lexed.start = none := by
      simpa [importHere?, hw, Lexed.isImportExpression, hnext] using hi
    have hattempt := (attempt importAlias).foretells h setting lexed
    rw [attempt_importAlias h.isWhole hc] at hattempt
    rw [hn, Reading.andThen, if_neg Bool.false_ne_true, importOrAlias, bind_run]
    rcases hattempt.eq_done with hn | hn
    · rw [hn]
      rfl
    · have hstep : importStep setting.language.typescript lexed = none := by
        rw [importStep, hr, Option.map_none]
      have htypescript : typescript.run near setting lexed =
          .done setting.language.typescript lexed := rfl
      rw [hn, Reading.andThen, Option.isNone_none, if_pos rfl, bind_run, htypescript,
        Reading.andThen]
      simp [goes, hstep, h.isCut]

end

/-- The token at which a text is read again without the gap in front. -/
theorem nextToken_start (text : Text) :
    nextToken (nextToken text).start = { nextToken text with broken := false } :=
  nextToken_eq (isTrimmed_of_skipTrivia rfl).skipTrivia rfl

theorem importHere?_closes {lexed : Lexed} {code rest : Text} {declaration : ImportDeclaration}
    (hc : nextToken code = lexed) (h : importHere? language lexed = some (declaration, rest)) :
    Closes lexed.rest rest := by
  obtain ⟨-, h⟩ := Option.ite_none_right_eq_some.mp h
  obtain ⟨clause, source, behind, hk, ha, -⟩ := readImport_eq h
  obtain ⟨-, rfl⟩ := readKeyword_eq hk
  rw [← hc, nextToken_start, hc] at ha
  exact readAfterImport_closes ha

theorem readStatement_unsettled {more rest : Text}
    (hc : Closes ((nextToken text).extend more).rest rest)
    (hi : importHere? language (nextToken text) = none)
    (hw : (nextToken text).isWord "import" = true) :
    readStatement true language text = .unsettled := by
  obtain ⟨word, htoken, hword⟩ := View.isWord_iff.mp hw
  obtain ⟨depth, hdepth⟩ : ∃ depth, 20 * (text.length + 1) = depth + 1 :=
    Nat.exists_eq_add_one_of_ne_zero (by omega)
  have hh : Horizon.Foretells more ⟨phrasesFor (text.length + 2) true depth, text.length + 2, true⟩
      ⟨phrasesFor (text.length + 2) false depth, text.length + 2, false⟩ :=
    ⟨rfl, rfl, Nat.le_refl _, phrasesFor_foretells (Nat.le_refl _) (Nat.le_refl _) more⟩
  have hn : SourceReader.importStatement.run
      ⟨phrasesFor (text.length + 2) true depth, text.length + 2, true⟩ (outermostSetting language)
      (nextToken text) = .unsettled := SourceReader.importStatement_unsettled hh hc hi hw
  rw [readStatement, hdepth, phrasesFor, Phrase.reader, SourceReader.bind_run,
    SourceReader.statement_import htoken hword, hn]
  rfl

/-- No import begins where a statement begins that is read before a cut. -/
theorem importHere?_append (h : settledLength? language text = some length)
    (hi : importHere? language (nextToken text) = none) (more : Text) :
    importHere? language (nextToken (text ++ more)) = none := by
  obtain ⟨hs, hl⟩ := Option.ite_none_right_eq_some.mp h
  have hnext := nextToken_settled hs more
  cases hm : importHere? language (nextToken (text ++ more)) with
  | none => rfl
  | some found =>
    have hc := importHere?_closes rfl hm
    have hw := (Bool.and_eq_true_iff.mp (Option.ite_none_right_eq_some.mp hm).1).1
    rw [hnext] at hc hw
    rw [readStatement_unsettled hc hi hw] at hl
    cases hl

/-- A statement that is read before a cut begins any text that goes on there. -/
theorem beginning?_append (h : settledLength? language text = some length)
    (hi : importHere? language (nextToken text) = none) (hl : length ≠ 0) (more : Text) :
    beginning? language (text ++ more) = some (.statement length) := by
  have hs := (Option.ite_none_right_eq_some.mp h).1
  have hend : (nextToken (text ++ more)).isEnd = false := by
    rw [nextToken_settled hs]
    exact (Lexed.not_isEnd_of_isSettled hs : (nextToken text).isEnd = false)
  simp [beginning?, hend, importHere?_append h hi, statementLength?_append h, hl]

end DirectImports
