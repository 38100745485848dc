import DirectImports.Proofs.Token

/-! Lexemes in front of more text. A lexeme that leaves something of a text is read to the same
place when the text goes on, since no reader looks farther than behind the lexeme. -/

namespace DirectImports

theorem drop_one_append {text : Text} (h : text.drop 1 ≠ []) (more : Text) :
    (text ++ more).drop 1 = text.drop 1 ++ more := by
  cases text with
  | nil => exact absurd rfl h
  | cons c text => rfl

theorem dropWhile_append_of_ne_nil {p : Char → Bool} {text : Text} (h : text.dropWhile p ≠ [])
    (more : Text) : (text ++ more).dropWhile p = text.dropWhile p ++ more := by
  rw [List.dropWhile_append, if_neg (by simpa using h)]

theorem takeWhile_append_of_drop_ne_nil {p : Char → Bool} {text : Text}
    (h : text.drop (text.takeWhile p).length ≠ []) (more : Text) :
    (text ++ more).takeWhile p = text.takeWhile p := by
  have hl : (text.takeWhile p).length < text.length := by simpa using h
  rw [List.takeWhile_append, if_neg (Nat.ne_of_lt hl)]

theorem readAttributeString_append {quote : Char} {text rest : Text}
    (h : readAttributeString quote text = some rest) (more : Text) :
    readAttributeString quote (text ++ more) = some (rest ++ more) := by
  induction text with
  | nil => cases h
  | cons c text ih =>
    simp only [List.cons_append, readAttributeString] at h ⊢
    split at h
    next hc => rw [if_pos hc, Option.some.inj h]
    next hc => rw [if_neg hc, ih h]

theorem readRegexFrom_append {mode : RegexMode} {text rest : Text} {closed : Bool}
    (h : readRegexFrom mode text = (closed, rest)) (hr : rest ≠ []) (more : Text) :
    readRegexFrom mode (text ++ more) = (closed, rest ++ more) := by
  induction text generalizing mode with
  | nil =>
    simp only [readRegexFrom, Prod.mk.injEq] at h
    exact absurd h.2.symm hr
  | cons c text ih => cases mode <;> grind [readRegexFrom]

theorem readRegex_append {text : Text} (h : readRegex text ≠ []) (more : Text) :
    readRegex (text ++ more) = readRegex text ++ more := by
  cases hr : readRegexFrom .plain text with
  | mk closed rest =>
    have hrest : rest ≠ [] := by
      rintro rfl
      cases closed <;> simp [readRegex, hr] at h
    have hmore := readRegexFrom_append hr hrest more
    cases closed with
    | false => simp [readRegex, hr, hmore]
    | true =>
      simp only [readRegex, hr, hmore] at h ⊢
      exact dropWhile_append_of_ne_nil h more

theorem readTemplate_cons {c : Char} {text : Text} (hc : c ≠ '\\')
    (hh : c = '$' → text.head? ≠ some '\x7b') : readTemplate (c :: text) =
      if c = '`' then some (false, text) else readTemplate text := by
  rw [readTemplate]
  · simp [hc]
  · simp [hc]
  · rintro _ rfl rfl
    simp at hh

theorem readTemplate_append {text rest : Text} {isOpen : Bool}
    (h : readTemplate text = some (isOpen, rest)) (more : Text) :
    readTemplate (text ++ more) = some (isOpen, rest ++ more) := by
  fun_induction readTemplate text with
  | case1 | case2 => cases h
  | case3 c text ih => simpa [readTemplate] using ih h
  | case4 text | case5 text =>
    obtain ⟨rfl, rfl⟩ := Prod.mk.inj (Option.some.inj h)
    simp [readTemplate]
  | case6 c text hone hmore hhole hc ih =>
    have hslash : c ≠ '\\' := by
      rintro rfl
      cases text with
      | nil => exact hone rfl rfl
      | cons d text => exact hmore d text rfl rfl
    have hopen : c = '$' → (text ++ more).head? ≠ some '\x7b' := by
      rintro rfl
      cases text with
      | nil => cases h
      | cons d text => simpa using fun hd => hhole text rfl (by rw [hd])
    rw [List.cons_append, readTemplate_cons hslash hopen, if_neg hc, ih h]

theorem endNumber_append {text rest : Text} (h : endNumber text = some rest) (hr : rest ≠ [])
    (more : Text) : endNumber (text ++ more) = some (rest ++ more) := by
  obtain ⟨hn, h⟩ := Option.ite_none_left_eq_some.mp h
  obtain rfl := Option.some.inj h
  obtain ⟨c, text, rfl⟩ := List.exists_cons_of_ne_nil hr
  simpa [endNumber] using hn

theorem dropDigits_cons {isDigit : Char → Bool} {c : Char} {text : Text} (hc : c ≠ '_') :
    dropDigits isDigit (c :: text) =
      if isDigit c then dropDigits isDigit text else c :: text := by
  rw [dropDigits]
  · simp [hc]
  · simp [hc]

theorem dropDigits_append {isDigit : Char → Bool} {text : Text} (h : dropDigits isDigit text ≠ [])
    (more : Text) : dropDigits isDigit (text ++ more) = dropDigits isDigit text ++ more := by
  fun_induction dropDigits isDigit text with
  | case1 | case2 => exact absurd rfl h
  | case3 c text hc ih => simpa [dropDigits, hc] using ih h
  | case4 c text hc => simp [dropDigits, hc]
  | case5 c text hone hmore hc ih =>
    have hbar : c ≠ '_' := by
      rintro rfl
      cases text with
      | nil => exact hone rfl rfl
      | cons d text => exact hmore d text rfl rfl
    rw [List.cons_append, dropDigits_cons hbar, if_pos hc, ih h]
  | case6 c text hone hmore hc =>
    have hbar : c ≠ '_' := by
      rintro rfl
      cases text with
      | nil => exact hone rfl rfl
      | cons d text => exact hmore d text rfl rfl
    rw [List.cons_append, dropDigits_cons hbar, if_neg hc]

theorem dropSomeDigits_cons (c : Char) (text : Text) : dropSomeDigits (c :: text) =
    if c.isDigit then dropDigits Char.isDigit (c :: text) else c :: text :=
  rfl

theorem dropSomeDigits_append {text : Text} (h : dropSomeDigits text ≠ []) (more : Text) :
    dropSomeDigits (text ++ more) = dropSomeDigits text ++ more := by
  cases text with
  | nil => exact absurd rfl h
  | cons c text =>
    rw [dropSomeDigits_cons] at h
    rw [List.cons_append, dropSomeDigits_cons, dropSomeDigits_cons]
    by_cases hc : c.isDigit = true
    · rw [if_pos hc] at h ⊢
      rw [if_pos hc, ← List.cons_append, dropDigits_append h]
    · rw [if_neg hc, if_neg hc, List.cons_append]

theorem dropSign_append {text : Text} (h : text ≠ []) (more : Text) :
    dropSign (text ++ more) = dropSign text ++ more := by
  obtain ⟨c, text, rfl⟩ := List.exists_cons_of_ne_nil h
  unfold dropSign
  grind

theorem dropExponent_append {text : Text} (h : dropExponent text ≠ []) (more : Text) :
    dropExponent (text ++ more) = dropExponent text ++ more := by
  have hsigned {text : Text} (h : dropSomeDigits (dropSign text) ≠ []) :
      dropSomeDigits (dropSign (text ++ more)) = dropSomeDigits (dropSign text) ++ more := by
    have htext : text ≠ [] := by
      rintro rfl
      exact h rfl
    rw [dropSign_append htext, dropSomeDigits_append h]
  cases text with
  | nil => exact absurd rfl h
  | cons c text =>
    by_cases he : c = 'e'
    · subst he
      exact hsigned h
    · by_cases hE : c = 'E'
      · subst hE
        exact hsigned h
      · simp [dropExponent, he, hE]

theorem readFraction_append {text rest : Text} (h : readFraction text = some rest)
    (hr : rest ≠ []) (more : Text) : readFraction (text ++ more) = some (rest ++ more) := by
  obtain rfl : dropExponent (dropSomeDigits text) = rest :=
    Option.some.inj (Option.ite_none_left_eq_some.mp h).2
  have hdigits : dropSomeDigits text ≠ [] := by
    intro hn
    exact hr (by rw [hn]; rfl)
  rw [readFraction, dropSomeDigits_append hdigits, dropExponent_append hr]
  exact endNumber_append h hr more


theorem readAfterDigits_cons {c : Char} {text : Text} (hdot : c ≠ '.') (hn : c ≠ 'n') :
    readAfterDigits (c :: text) = endNumber (dropExponent (c :: text)) := by
  rw [readAfterDigits]
  · simp [hdot]
  · simp [hn]

theorem readExponent_append {text rest : Text} (h : endNumber (dropExponent text) = some rest)
    (hr : rest ≠ []) (more : Text) :
    endNumber (dropExponent (text ++ more)) = some (rest ++ more) := by
  obtain rfl : dropExponent text = rest := Option.some.inj (Option.ite_none_left_eq_some.mp h).2
  rw [dropExponent_append hr]
  exact endNumber_append h hr more

theorem readAfterDigits_append {text rest : Text} (h : readAfterDigits text = some rest)
    (hr : rest ≠ []) (more : Text) : readAfterDigits (text ++ more) = some (rest ++ more) := by
  cases text with
  | nil =>
    obtain rfl : [] = rest := Option.some.inj h
    exact absurd rfl hr
  | cons c text =>
    by_cases hdot : c = '.'
    · subst hdot
      exact readFraction_append h hr more
    · by_cases hn : c = 'n'
      · subst hn
        exact endNumber_append h hr more
      · rw [readAfterDigits_cons hdot hn] at h
        rw [List.cons_append, readAfterDigits_cons hdot hn]
        exact readExponent_append h hr more

theorem readInBase_append {base : Nat} {text rest : Text} (h : readInBase base text = some rest)
    (hr : rest ≠ []) (more : Text) : readInBase base (text ++ more) = some (rest ++ more) := by
  simp only [readInBase] at h ⊢
  obtain ⟨hdigits, h⟩ := Option.ite_none_left_eq_some.mp h
  generalize hp : (fun c => ((hexValue? c).any fun value => decide (value < base)) || c == '_') = p
    at *
  generalize hl : text.drop (text.takeWhile p).length = later at *
  have hne : later ≠ [] := by
    rintro rfl
    obtain rfl : [] = rest := Option.some.inj h
    exact hr rfl
  obtain ⟨c, later, rfl⟩ := List.exists_cons_of_ne_nil hne
  have htake := takeWhile_append_of_drop_ne_nil (p := p) (by rw [hl]; simp) more
  have hdrop : (text ++ more).drop (text.takeWhile p).length = c :: (later ++ more) := by
    rw [List.drop_append_of_le_length (List.takeWhile_sublist p).length_le, hl, List.cons_append]
  rw [htake, hdrop, if_neg hdigits]
  by_cases hn : c = 'n'
  · subst hn
    exact endNumber_append h hr more
  · simp only [List.head?_cons, Option.some.injEq, hn, if_false] at h ⊢
    exact endNumber_append h hr more

theorem readAfterZero_append {text rest : Text} (h : readAfterZero text = some rest)
    (hr : rest ≠ []) (more : Text) : readAfterZero (text ++ more) = some (rest ++ more) := by
  simp only [readAfterZero] at h ⊢
  by_cases hl : text.drop (text.takeWhile Char.isDigit).length = []
  · rw [hl] at h
    split at h
    · exact absurd (Option.some.inj h).symm hr
    · split at h
      · exact absurd (Option.some.inj h).symm hr
      · exact absurd (Option.some.inj h).symm hr
  · rw [takeWhile_append_of_drop_ne_nil hl, List.drop_append_of_le_length
      (List.takeWhile_sublist _).length_le]
    generalize text.drop (text.takeWhile Char.isDigit).length = later at *
    split at h
    next hd =>
      rw [if_pos hd]
      exact readAfterDigits_append h hr more
    next hd =>
      rw [if_neg hd]
      split at h
      next ht =>
        rw [if_pos ht]
        obtain ⟨c, later, rfl⟩ := List.exists_cons_of_ne_nil hl
        by_cases hdot : c = '.'
        · subst hdot
          exact readFraction_append h hr more
        · simp only [List.cons_append] at h ⊢
          split at h
          next hd => exact absurd (List.cons.inj hd).1 hdot
          next =>
            split
            next hd => exact absurd (List.cons.inj hd).1 hdot
            next => exact readExponent_append h hr more
      next ht =>
        rw [if_neg ht]
        exact endNumber_append h hr more

theorem readDecimal_append {text rest : Text}
    (h : readAfterDigits (dropDigits Char.isDigit text) = some rest) (hr : rest ≠ [])
    (more : Text) : readAfterDigits (dropDigits Char.isDigit (text ++ more)) =
      some (rest ++ more) := by
  have hdigits : dropDigits Char.isDigit text ≠ [] := by
    intro hn
    rw [hn] at h
    exact hr (Option.some.inj h).symm
  rw [dropDigits_append hdigits]
  exact readAfterDigits_append h hr more

theorem readNumber_cons {c : Char} {text : Text} (hc : c ≠ '0') :
    readNumber (c :: text) = readAfterDigits (dropDigits Char.isDigit (c :: text)) := by
  rw [readNumber]
  simp [hc]

theorem readNumber_append {text rest : Text} (h : readNumber text = some rest)
    (hr : rest ≠ []) (more : Text) : readNumber (text ++ more) = some (rest ++ more) := by
  cases text with
  | nil => exact absurd (Option.some.inj h).symm hr
  | cons c text =>
    by_cases hc : c = '0'
    · subst hc
      cases text with
      | nil => exact absurd (Option.some.inj h).symm hr
      | cons d text =>
        simp only [List.cons_append, readNumber, List.head?_cons, Option.bind_some,
          List.drop_succ_cons, List.drop_zero] at h ⊢
        split at h
        · exact readInBase_append h hr more
        · exact readAfterZero_append h hr more
    · rw [readNumber_cons hc] at h
      rw [List.cons_append, readNumber_cons hc]
      exact readDecimal_append h hr more

section

variable {spellings : List (Text × Mark)} {single : Mark} {text : Text}

theorem isPrefixOf_append {spelling : Text} (h : spelling.length ≤ text.length) (more : Text) :
    spelling.isPrefixOf (text ++ more) = spelling.isPrefixOf text := by
  rw [Bool.eq_iff_iff, List.isPrefixOf_iff_prefix, List.isPrefixOf_iff_prefix]
  exact ⟨fun hp => List.prefix_of_prefix_length_le hp (List.prefix_append text more) h,
    fun hp => hp.trans (List.prefix_append text more)⟩

/-- A mark is told by as many characters as its longest spelling has. -/
theorem spelledMark_append (h : ∀ spelling ∈ spellings, spelling.1.length ≤ text.length)
    (more : Text) : spelledMark spellings single (text ++ more) =
      ((spelledMark spellings single text).1, (spelledMark spellings single text).2 ++ more) := by
  induction spellings with
  | nil => rfl
  | cons spelling spellings ih =>
    obtain ⟨hl, hlater⟩ := List.forall_mem_cons.mp h
    simp only [spelledMark, List.find?_cons, isPrefixOf_append hl] at ih ⊢
    cases spelling.1.isPrefixOf text with
    | true => simp [List.drop_append_of_le_length hl]
    | false => exact ih hlater

theorem spelledMark_length_le {mark : Mark} {rest : Text}
    (h : spelledMark spellings single text = (mark, rest)) : rest.length ≤ text.length := by
  obtain rfl := congrArg Prod.snd h
  unfold spelledMark
  split
  · simp
  · exact Nat.le_refl _

theorem spelledMark_settled {rest : Text} {mark : Mark}
    (hs : ∀ spelling ∈ spellings, spelling.1.length ≤ 3)
    (h : spelledMark spellings single text = (mark, rest)) (hr : 3 ≤ rest.length) (more : Text) :
    spelledMark spellings single (text ++ more) = (mark, rest ++ more) := by
  have hl := Nat.le_trans hr (spelledMark_length_le h)
  rw [spelledMark_append (fun spelling hm => Nat.le_trans (hs spelling hm) hl), h]

theorem operatorMark_settled {c : Char} {doubled mark : Mark} {rest : Text}
    (h : operatorMark c single doubled text = (mark, rest)) (hr : 3 ≤ rest.length) (more : Text) :
    operatorMark c single doubled (text ++ more) = (mark, rest ++ more) := by
  refine spelledMark_settled ?_ h hr more
  by_cases hd : doubled = .joining
  · simp [hd]
  · simp [hd]

theorem questionMark_settled {mark : Mark} {rest : Text} (h : questionMark text = (mark, rest))
    (hr : 3 ≤ rest.length) (more : Text) : questionMark (text ++ more) = (mark, rest ++ more) := by
  have hl : rest.length ≤ text.length := by
    unfold questionMark at h
    split at h
    all_goals exact spelledMark_length_le h
  have hhead : ((text ++ more).drop 1).head? = (text.drop 1).head? := by
    match text, hl with
    | _ :: _ :: _, _ => rfl
    | [_], hl | [], hl =>
      simp only [List.length_cons, List.length_nil] at hl
      omega
  unfold questionMark at h ⊢
  rw [hhead]
  split at h
  next hd =>
    rw [if_pos hd]
    exact spelledMark_settled (by decide) h hr more
  next hd =>
    rw [if_neg hd]
    exact spelledMark_settled (by decide) h hr more

end

/-- Three characters behind a mark are enough to hold it. -/
theorem readMark?_settled {c : Char} {mark : Mark} {text rest : Text}
    (h : readMark? c text = some (mark, rest)) (hr : 3 ≤ rest.length) (more : Text) :
    readMark? c (text ++ more) = some (mark, rest ++ more) := by
  unfold readMark? at h ⊢
  cases hs : singleMark? c with
  | some single =>
    rw [hs] at h
    obtain ⟨rfl, rfl⟩ := Prod.mk.inj (Option.some.inj h)
    rfl
  | none =>
    rw [hs] at h
    dsimp only at h ⊢
    split at h
    case h_14 => cases h
    case h_4 => exact congrArg some (questionMark_settled (Option.some.inj h) hr more)
    case h_7 | h_8 | h_9 | h_10 | h_11 =>
      exact congrArg some (operatorMark_settled (Option.some.inj h) hr more)
    all_goals
      exact congrArg some (spelledMark_settled (by decide) (Option.some.inj h) hr more)

theorem readWord_append {text : Text} (h : (readWord text).2 ≠ []) (more : Text) :
    readWord (text ++ more) = ((readWord text).1, (readWord text).2 ++ more) :=
  readWordFrom_append (b := []) (by simp [readWord]) h more

theorem readLiteral_append {quote : Char} {text value rest : Text}
    (h : readLiteral quote text = some (value, rest)) (more : Text) :
    readLiteral quote (text ++ more) = some (value, rest ++ more) := by
  obtain ⟨⟨units, u⟩, hread, hu⟩ := Option.map_eq_some_iff.mp h
  obtain ⟨rfl, rfl⟩ := Prod.mk.inj hu
  have happend := readUnits_append (a := text) (b := []) (t := u) (by simpa using hread) more
  simp [readLiteral, happend]

theorem readPrivateName_append {text rest : Text} {token : Token}
    (h : readPrivateName text = some (token, rest)) (hr : rest ≠ []) (more : Text) :
    readPrivateName (text ++ more) = some (token, rest ++ more) := by
  obtain ⟨hb, h⟩ := Option.ite_none_right_eq_some.mp h
  obtain ⟨rfl, rfl⟩ := Prod.mk.inj (Option.some.inj h)
  obtain ⟨c, text, rfl⟩ : ∃ c rest, text = c :: rest := by
    cases text with
    | nil => cases hb
    | cons c text => exact ⟨c, text, rfl⟩
  have hword := readWord_append hr more
  rw [List.cons_append] at hword ⊢
  simpa [readPrivateName, hword] using hb

theorem orBroken_settled {read : Option (Token × Text)} {token : Token} {rest : Text}
    (h : orBroken read = (token, rest)) (hr : rest ≠ []) : read = some (token, rest) := by
  cases read with
  | none => exact absurd (Prod.mk.inj h).2.symm hr
  | some read => exact congrArg some h

theorem readToken_settled {text rest : Text} {token : Token}
    (h : readToken text = (token, rest)) (hr : rest ≠ [])
    (hm : ∀ mark, token = .mark mark → 3 ≤ rest.length) (more : Text) :
    readToken (text ++ more) = (token, rest ++ more) := by
  cases text with
  | nil => exact absurd (Prod.mk.inj h).2.symm hr
  | cons c text =>
    have htext : c = '.' → text ≠ [] := by
      rintro rfl rfl
      exact hr (Prod.mk.inj h).2.symm
    have hdigit : (c = '.' ∧ (text ++ more).head?.any Char.isDigit = true) ↔
        (c = '.' ∧ text.head?.any Char.isDigit = true) := by
      refine and_congr_right fun hc => ?_
      obtain ⟨d, text, rfl⟩ := List.exists_cons_of_ne_nil (htext hc)
      exact Iff.rfl
    simp only [List.cons_append, readToken, hdigit] at h ⊢
    by_cases hw : beginsWord? c = true
    · rw [if_pos hw] at h ⊢
      obtain ⟨rfl, rfl⟩ := Prod.mk.inj h
      rw [← List.cons_append, readWord_append hr]
    rw [if_neg hw] at h ⊢
    by_cases hq : c = '"' ∨ c = '\''
    · rw [if_pos hq] at h ⊢
      obtain ⟨⟨value, u⟩, hread, hu⟩ := Option.map_eq_some_iff.mp (orBroken_settled h hr)
      obtain ⟨rfl, rfl⟩ := Prod.mk.inj hu
      rw [readLiteral_append hread]
      rfl
    rw [if_neg hq] at h ⊢
    by_cases ht : c = '`'
    · rw [if_pos ht] at h ⊢
      obtain ⟨⟨isOpen, u⟩, hread, hu⟩ := Option.map_eq_some_iff.mp (orBroken_settled h hr)
      obtain ⟨rfl, rfl⟩ := Prod.mk.inj hu
      rw [readTemplate_append hread]
      rfl
    rw [if_neg ht] at h ⊢
    by_cases hn : c.isDigit = true
    · rw [if_pos hn] at h ⊢
      obtain ⟨u, hread, hu⟩ := Option.map_eq_some_iff.mp (orBroken_settled h hr)
      obtain ⟨rfl, rfl⟩ := Prod.mk.inj hu
      rw [← List.cons_append, readNumber_append hread hr]
      rfl
    rw [if_neg hn] at h ⊢
    by_cases hf : c = '.' ∧ text.head?.any Char.isDigit = true
    · rw [if_pos hf] at h ⊢
      obtain ⟨u, hread, hu⟩ := Option.map_eq_some_iff.mp (orBroken_settled h hr)
      obtain ⟨rfl, rfl⟩ := Prod.mk.inj hu
      rw [readFraction_append hread hr]
      rfl
    rw [if_neg hf] at h ⊢
    by_cases hp : c = '#'
    · rw [if_pos hp] at h ⊢
      rw [readPrivateName_append (orBroken_settled h hr) hr]
      rfl
    rw [if_neg hp] at h ⊢
    obtain ⟨⟨mark, u⟩, hread, hu⟩ := Option.map_eq_some_iff.mp (orBroken_settled h hr)
    obtain ⟨rfl, rfl⟩ := Prod.mk.inj hu
    rw [readMark?_settled hread (hm mark rfl)]
    rfl

theorem skipTrivia_settled {text code : Text} {broken : Bool}
    (h : skipTrivia text = (broken, code)) (hn : code ≠ []) (hs : code ≠ ['/']) (more : Text) :
    skipTrivia (text ++ more) = (broken, code ++ more) := by
  have hsuffix := skipTrivia_suffix text
  rw [h] at hsuffix
  obtain ⟨gap, rfl⟩ := hsuffix
  rw [List.append_assoc]
  exact skipTrivia_append h hn ((isTrimmed_of_skipTrivia (congrArg Prod.snd h)).append hn hs more)

theorem Lexed.rest_of_isSettled {lexed : Lexed} (h : lexed.isSettled = true) :
    lexed.rest ≠ [] ∧ ∀ mark, lexed.token = .mark mark → 3 ≤ lexed.rest.length := by
  unfold Lexed.isSettled at h
  split at h
  next mark hm =>
    have hl := of_decide_eq_true h
    exact ⟨List.ne_nil_of_length_pos (by omega), fun _ _ => hl⟩
  next => cases h
  next => cases h
  next hm _ _ =>
    exact ⟨by simpa using h, fun mark ht => (hm mark ht).elim⟩

theorem Lexed.not_isEnd_of_isSettled {lexed : Lexed} (h : lexed.isSettled = true) :
    lexed.isEnd = false := by
  unfold Lexed.isSettled at h
  unfold View.isEnd
  split at h
  next mark hm => simp [hm]
  next => cases h
  next => cases h
  next hb hf => exact decide_eq_false (not_or.mpr ⟨hf, hb⟩)

theorem ne_nil_of_isSettled {text : Text} (h : (nextToken text).isSettled = true) : text ≠ [] := by
  rintro rfl
  cases h

theorem nextToken_settled {text : Text} (h : (nextToken text).isSettled = true) (more : Text) :
    nextToken (text ++ more) = (nextToken text).extend more := by
  obtain ⟨hr, hm⟩ := Lexed.rest_of_isSettled h
  have hread : readToken (skipTrivia text).2 = ((nextToken text).token, (nextToken text).rest) :=
    rfl
  have hn : (skipTrivia text).2 ≠ [] := by
    intro hn
    rw [hn] at hread
    exact hr (Prod.mk.inj hread).2.symm
  have hs : (skipTrivia text).2 ≠ ['/'] := by
    intro hs
    rw [hs] at hread
    exact hr (Prod.mk.inj hread).2.symm
  exact nextToken_eq (skipTrivia_settled rfl hn hs more) (readToken_settled hread hr hm more)

end DirectImports
