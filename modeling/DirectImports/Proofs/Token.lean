import DirectImports.Proofs.Trivia
import DirectImports.Source.Token

/-! The tokens of import declarations. What such a token is depends on the text up to the character
behind it, so that it is read again in front of any other text. -/

namespace DirectImports

theorem readWordFrom_suffix (isFirst : Bool) (mode : WordMode) (text : Text) :
    (readWordFrom isFirst mode text).2 <:+ text := by
  induction text generalizing isFirst mode with
  | nil => simp [readWordFrom]
  | cons c text ih =>
    cases hs : wordStep isFirst mode c with
    | stop => simp [readWordFrom, hs]
    | more added next =>
      have h := ih (isFirst && next != .plain) next
      simpa [readWordFrom, hs, prependChar] using h.trans (List.suffix_cons c text)

theorem plainWordStep_beginsWord {c : Char} (hc : beginsWord? c = true) :
    plainWordStep c ≠ .stop := by
  unfold plainWordStep
  rcases Bool.or_eq_true_iff.mp hc with hs | hs
  · simp [isIdentifierPart, hs]
  · obtain rfl := beq_iff_eq.mp hs
    split <;> simp

/-- A word has at least one character. -/
theorem readWord_isBehind {c : Char} (text : Text) (hc : beginsWord? c = true) :
    IsBehind (readWord (c :: text)).2 (c :: text) := by
  cases hs : wordStep true .plain c with
  | stop => exact absurd hs (plainWordStep_beginsWord hc)
  | more added mode =>
    rw [readWord, readWordFrom, hs]
    exact isBehind_cons (readWordFrom_suffix _ mode text)

theorem readWordFrom_append {isFirst : Bool} {mode : WordMode} {word : Word} {a b t : Text}
    (h : readWordFrom isFirst mode (a ++ b) = (word, t ++ b)) (ht : t ≠ []) (b' : Text) :
    readWordFrom isFirst mode (a ++ b') = (word, t ++ b') := by
  induction a generalizing isFirst mode word with
  | nil =>
    have hl := (readWordFrom_suffix isFirst mode b).length_le
    have hp := List.length_pos_iff.mpr ht
    rw [List.nil_append] at h
    rw [h, List.length_append] at hl
    omega
  | cons c a ih =>
    cases hs : wordStep isFirst mode c with
    | stop =>
      simp only [List.cons_append, readWordFrom, hs, Prod.mk.injEq] at h ⊢
      have hca : c :: a = t := List.append_cancel_right h.2
      exact ⟨h.1, by rw [← hca, List.cons_append]⟩
    | more added next =>
      simp only [List.cons_append, readWordFrom, hs, prependChar, Prod.mk.injEq] at h ⊢
      rw [ih (Prod.ext rfl h.2)]
      exact ⟨h.1, rfl⟩

theorem readUnits_isBehind {quote : Char} {mode : LiteralMode} {text rest : Text}
    {units : List LiteralUnit} (h : readUnits quote mode text = some (units, rest)) :
    IsBehind rest text := by
  induction text generalizing mode units with
  | nil => simp [readUnits] at h
  | cons c text ih =>
    cases hs : literalStep quote mode c with
    | fail => simp [readUnits, hs] at h
    | close found =>
      simp only [readUnits, hs, Option.some.injEq, Prod.mk.injEq] at h
      exact isBehind_cons (h.2 ▸ List.suffix_rfl)
    | more found next =>
      simp only [readUnits, hs, Option.map_eq_some_iff, Prod.exists, Prod.mk.injEq] at h
      obtain ⟨later, _, hr, _, rfl⟩ := h
      exact isBehind_cons (ih hr).1

theorem readUnits_append {quote : Char} {mode : LiteralMode} {units : List LiteralUnit}
    {a b t : Text} (h : readUnits quote mode (a ++ b) = some (units, t ++ b)) (b' : Text) :
    readUnits quote mode (a ++ b') = some (units, t ++ b') := by
  induction a generalizing mode units with
  | nil =>
    have hl := (readUnits_isBehind h).2
    rw [List.length_append, List.nil_append] at hl
    omega
  | cons c a ih =>
    cases hs : literalStep quote mode c with
    | fail => simp [readUnits, hs] at h
    | close found =>
      simp only [List.cons_append, readUnits, hs, Option.some.injEq, Prod.mk.injEq] at h ⊢
      exact ⟨h.1, by rw [List.append_cancel_right h.2]⟩
    | more found next =>
      simp only [List.cons_append, readUnits, hs, Option.map_eq_some_iff, Prod.exists,
        Prod.mk.injEq] at h ⊢
      obtain ⟨later, _, hr, hu, rfl⟩ := h
      exact ⟨later, _, ih hr, hu, rfl⟩

/-- The marks that import declarations are written with. -/
def Mark.inImport : Mark → Bool
  | openBrace | closeBrace | star | comma | colon | semicolon => true
  | _ => false

/-- The tokens that import declarations consist of. -/
def Token.inImport : Token → Bool
  | word _ | literal _ => true
  | mark symbol => symbol.inImport
  | _ => false

/-- The tokens that end in the same place whatever follows. -/
def Token.endsItself : Token → Bool
  | literal _ => true
  | mark symbol => symbol.inImport && symbol != .star
  | _ => false

section

variable {spellings : List (Text × Mark)} {single : Mark} {text : Text}

theorem spelledMark_mem :
    (spelledMark spellings single text).1 ∈ single :: spellings.map Prod.snd := by
  unfold spelledMark
  split
  next spelling mark hf =>
    exact List.mem_cons_of_mem _ (List.mem_map.mpr ⟨_, List.mem_of_find?_eq_some hf, rfl⟩)
  next => exact List.mem_cons_self

/-- Where a mark is read that no spelling stands for, the text goes on with none of them. -/
theorem spelledMark_single {rest : Text} (hs : single ∉ spellings.map Prod.snd)
    (h : spelledMark spellings single text = (single, rest)) :
    rest = text ∧ ∀ spelling ∈ spellings, ¬spelling.1 <+: text := by
  unfold spelledMark at h
  split at h
  next spelling mark hf =>
    obtain ⟨rfl, -⟩ := Prod.mk.inj h
    exact absurd (List.mem_map.mpr ⟨_, List.mem_of_find?_eq_some hf, rfl⟩) hs
  next hf =>
    refine ⟨(Prod.mk.inj h).2.symm, fun spelling hm => ?_⟩
    simpa using List.find?_eq_none.mp hf spelling hm

end

theorem operatorMark_star {text rest : Text}
    (h : operatorMark '*' .star .joining text = (.star, rest)) :
    rest = text ∧ text.head? ≠ some '=' ∧ text.head? ≠ some '*' := by
  obtain ⟨rfl, hn⟩ := spelledMark_single (by decide) h
  have hhead {c : Char} (hc : ¬[c] <+: rest) : rest.head? ≠ some c := by
    intro he
    obtain ⟨later, rfl⟩ := List.head?_eq_some_iff.mp he
    exact hc ⟨later, rfl⟩
  exact ⟨rfl, hhead (hn (['='], .assigning) (by decide)), hhead (hn (['*'], .joining) (by decide))⟩

/-- No operator that begins with a character of its own belongs to an import declaration. -/
theorem operators_inImport {read : Text → Mark × Text}
    (h : read ∈ [equalsMark, exclamationMark, lessMark, questionMark, dotMark, slashMark,
      joiningMark, operatorMark '+' .plus .plusPlus, operatorMark '-' .minus .minusMinus,
      operatorMark '&' .ampersand .joining, operatorMark '|' .pipe .joining]) (text : Text) :
    (read text).1.inImport = false := by
  have hspelled {spellings : List (Text × Mark)} {single : Mark}
      (hn : ∀ mark ∈ single :: spellings.map Prod.snd, mark.inImport = false) :
      (spelledMark spellings single text).1.inImport = false :=
    hn _ spelledMark_mem
  have hquestion : (questionMark text).1.inImport = false := by
    unfold questionMark
    split
    all_goals exact hspelled (by decide)
  simp only [List.mem_cons, List.not_mem_nil, or_false] at h
  rcases h with rfl | rfl | rfl | rfl | rfl | rfl | rfl | rfl | rfl | rfl | rfl
  case inr.inr.inr.inl => exact hquestion
  all_goals exact hspelled (by decide)

theorem readMark?_operator {c : Char} {mark : Mark} {text rest : Text}
    (h : readMark? c text = some (mark, rest)) (hs : singleMark? c = none) (hc : c ≠ '*') :
    mark.inImport = false := by
  simp only [readMark?, hs] at h
  split at h
  case h_9 => exact absurd rfl hc
  case h_14 => simp at h
  all_goals
    have hm : mark = _ := (congrArg Prod.fst (Option.some.inj h)).symm
    rw [hm]
    exact operators_inImport (by simp) text

theorem readMark?_inImport {c : Char} {mark : Mark} {text rest : Text}
    (h : readMark? c text = some (mark, rest)) (hm : mark.inImport = true) :
    rest = text ∧ (singleMark? c = some mark ∨
      c = '*' ∧ mark = .star ∧ text.head? ≠ some '=' ∧ text.head? ≠ some '*') := by
  cases hs : singleMark? c with
  | some single => simp_all [readMark?]
  | none =>
    by_cases hc : c = '*'
    · subst hc
      have hr : operatorMark '*' .star .joining text = (mark, rest) := Option.some.inj h
      have hstar : ∀ mark ∈ [Mark.star, .assigning, .assigning, .joining],
          mark.inImport = true → mark = .star := by decide
      have hmem : (operatorMark '*' .star .joining text).1 ∈ _ := spelledMark_mem
      rw [hr] at hmem
      obtain rfl := hstar mark hmem hm
      simpa using operatorMark_star hr
    · simp [readMark?_operator h hs hc] at hm

theorem orBroken_inImport {read : Option (Token × Text)} {token : Token} {rest : Text}
    (h : orBroken read = (token, rest)) (hi : token.inImport = true) :
    read = some (token, rest) := by
  cases read with
  | none =>
    obtain ⟨rfl, -⟩ := Prod.mk.inj h
    simp [Token.inImport] at hi
  | some read => exact congrArg some h

/-- How a token of an import declaration was read from its first character on. -/
theorem readToken_inImport {c : Char} {text rest : Text} {token : Token}
    (h : readToken (c :: text) = (token, rest)) (hi : token.inImport = true) :
    (∃ word, token = .word word ∧ beginsWord? c = true ∧ readWord (c :: text) = (word, rest)) ∨
    (∃ value, token = .literal value ∧ (c = '"' ∨ c = '\'') ∧
      readLiteral c text = some (value, rest)) ∨
    (∃ mark, token = .mark mark ∧ readMark? c text = some (mark, rest)) := by
  simp only [readToken] at h
  split at h
  next hw =>
    obtain ⟨rfl, rfl⟩ := Prod.mk.inj h
    exact .inl ⟨_, rfl, hw, rfl⟩
  split at h
  next hq =>
    have hr := orBroken_inImport h hi
    simp only [Option.map_eq_some_iff, Prod.exists, Prod.mk.injEq] at hr
    obtain ⟨value, _, hr, rfl, rfl⟩ := hr
    exact .inr (.inl ⟨value, rfl, hq, hr⟩)
  repeat' split at h
  case isFalse.isFalse.isFalse.isFalse.isFalse.isFalse =>
    have hr := orBroken_inImport h hi
    simp only [Option.map_eq_some_iff, Prod.exists, Prod.mk.injEq] at hr
    obtain ⟨mark, _, hr, rfl, rfl⟩ := hr
    exact .inr (.inr ⟨mark, rfl, hr⟩)
  -- Templates, numbers and private names have no place in an import declaration.
  case isFalse.isFalse.isFalse.isFalse.isFalse.isTrue =>
    have hr := orBroken_inImport h hi
    simp only [readPrivateName, Option.ite_none_right_eq_some, Option.some.injEq,
      Prod.mk.injEq] at hr
    simp [← hr.2.1, Token.inImport] at hi
  all_goals
    obtain ⟨_, _, hr⟩ := Option.map_eq_some_iff.mp (orBroken_inImport h hi)
    obtain ⟨rfl, -⟩ := Prod.mk.inj hr
    simp [Token.inImport] at hi

theorem readToken_word {c : Char} (text : Text) (hc : beginsWord? c = true) :
    readToken (c :: text) = (.word (readWord (c :: text)).1, (readWord (c :: text)).2) := by
  simp [readToken, hc]

theorem readToken_literal {c : Char} {text value rest : Text} (hc : c = '"' ∨ c = '\'')
    (h : readLiteral c text = some (value, rest)) :
    readToken (c :: text) = (.literal value, rest) := by
  have hw : beginsWord? c = false := by rcases hc with rfl | rfl <;> decide
  simp [readToken, hw, hc, h, orBroken]

theorem singleMark?_inImport {c : Char} {mark : Mark} (h : singleMark? c = some mark)
    (hm : mark.inImport = true) : c ∈ ['\x7b', '\x7d', ',', ':', ';'] := by
  unfold singleMark? at h
  split at h
  case h_13 => simp at h
  all_goals
    obtain rfl := Option.some.inj h
    revert hm
    decide

theorem readToken_mark {c : Char} {text rest : Text} {mark : Mark} (hm : mark.inImport = true)
    (h : readMark? c text = some (mark, rest)) : readToken (c :: text) = (.mark mark, rest) := by
  have hc : c ∈ ['*', '\x7b', '\x7d', ',', ':', ';'] := by
    obtain ⟨_, hs | ⟨rfl, _⟩⟩ := readMark?_inImport h hm
    · exact List.mem_cons_of_mem _ (singleMark?_inImport hs hm)
    · exact List.mem_cons_self
  have hn : ∀ d ∈ ['*', '\x7b', '\x7d', ',', ':', ';'], beginsWord? d = false ∧
      ¬(d = '"' ∨ d = '\'') ∧ d ≠ '`' ∧ d.isDigit = false ∧ d ≠ '.' ∧ d ≠ '#' := by
    simp only [List.forall_mem_cons, List.not_mem_nil, false_imp_iff, implies_true, and_true]
    decide
  obtain ⟨hw, hq, ht, hdigit, hdot, hhash⟩ := hn c hc
  simp [readToken, hw, hq, ht, hdigit, hdot, hhash, h, orBroken]

theorem readToken_isBehind {text rest : Text} {token : Token}
    (h : readToken text = (token, rest)) (hi : token.inImport = true) : IsBehind rest text := by
  cases text with
  | nil =>
    obtain ⟨rfl, -⟩ := Prod.mk.inj h
    simp [Token.inImport] at hi
  | cons c text =>
    rcases readToken_inImport h hi with ⟨word, rfl, hc, hr⟩ | ⟨value, rfl, _, hr⟩ | ⟨mark, rfl, hr⟩
    · have hb := readWord_isBehind text hc
      rwa [hr] at hb
    · simp only [readLiteral, Option.map_eq_some_iff, Prod.exists, Prod.mk.injEq] at hr
      obtain ⟨units, _, hr, _, rfl⟩ := hr
      exact isBehind_cons (readUnits_isBehind hr).1
    · exact isBehind_cons ((readMark?_inImport hr hi).1 ▸ List.suffix_rfl)

theorem readMark?_append {c : Char} {mark : Mark} {a b t : Text}
    (h : readMark? c (a ++ b) = some (mark, t ++ b)) (hm : mark.inImport = true)
    (ht : t ≠ [] ∨ mark ≠ .star) (b' : Text) :
    readMark? c (a ++ b') = some (mark, t ++ b') := by
  obtain ⟨hr, hs | ⟨rfl, rfl, he, hd⟩⟩ := readMark?_inImport h hm
  · obtain rfl := List.append_cancel_right hr
    simp [readMark?, hs]
  · obtain rfl := List.append_cancel_right hr
    obtain ⟨d, a, rfl⟩ := List.exists_cons_of_ne_nil (ht.resolve_right (by simp))
    have hd' : d ≠ '=' ∧ d ≠ '*' := by simpa using And.intro he hd
    simp [readMark?, singleMark?, operatorMark, spelledMark, hd'.1.symm, hd'.2.symm]

/-- A token of an import declaration is read in front of any text, if some character stands behind
it or it ends by itself. -/
theorem readToken_append {token : Token} {a b t : Text}
    (h : readToken (a ++ b) = (token, t ++ b)) (hi : token.inImport = true)
    (ht : t ≠ [] ∨ token.endsItself = true) (b' : Text) :
    readToken (a ++ b') = (token, t ++ b') := by
  cases a with
  | nil =>
    have hl := (readToken_isBehind h hi).2
    rw [List.length_append, List.nil_append] at hl
    omega
  | cons c a =>
    rcases readToken_inImport h hi with ⟨word, rfl, hc, hr⟩ | ⟨value, rfl, hc, hr⟩ | ⟨mark, rfl, hr⟩
    · have hw : readWord (c :: a ++ b') = (word, t ++ b') :=
        readWordFrom_append (a := c :: a) hr (ht.resolve_right (by simp [Token.endsItself])) b'
      rw [List.cons_append, readToken_word _ hc, ← List.cons_append, hw]
    · simp only [readLiteral, Option.map_eq_some_iff, Prod.exists, Prod.mk.injEq] at hr
      obtain ⟨units, _, hr, rfl, rfl⟩ := hr
      exact readToken_literal hc (by simp [readLiteral, readUnits_append hr b'])
    · have hm : t ≠ [] ∨ mark ≠ .star := by
        refine ht.imp_right fun he => ?_
        rintro rfl
        simp [Token.endsItself] at he
      exact readToken_mark hi (readMark?_append hr hi hm b')

theorem nextToken_eq {text start rest : Text} {broken : Bool} {token : Token}
    (hs : skipTrivia text = (broken, start)) (ht : readToken start = (token, rest)) :
    nextToken text = ⟨⟨broken, token⟩, start, rest⟩ := by
  simp only [nextToken, hs, ht]

theorem nextToken_isBehind {text : Text} (hi : (nextToken text).token.inImport = true) :
    IsBehind (nextToken text).rest text := by
  have hb : IsBehind (nextToken text).rest (skipTrivia text).2 := readToken_isBehind rfl hi
  exact hb.suffix (skipTrivia_suffix text)

theorem readToken_slash {text rest : Text} {token : Token}
    (h : readToken ('/' :: text) = (token, rest)) : token.inImport = false := by
  cases hi : token.inImport with
  | false => rfl
  | true =>
    rcases readToken_inImport h hi with ⟨_, _, hc, _⟩ | ⟨_, _, hc, _⟩ | ⟨mark, rfl, hr⟩
    · exact absurd hc (by decide)
    · exact absurd hc (by decide)
    · rw [← hi]
      exact readMark?_operator hr rfl (by decide)

/-- The next token, the gap before it included, is the same in front of any text, if some
character stands behind it or it ends by itself. -/
theorem nextToken_append {a b t : Text} (hr : (nextToken (a ++ b)).rest = t ++ b)
    (hi : (nextToken (a ++ b)).token.inImport = true)
    (ht : t ≠ [] ∨ (nextToken (a ++ b)).token.endsItself = true) :
    ∃ s, (nextToken (a ++ b)).start = s ++ b ∧ ∀ b', nextToken (a ++ b') =
      ⟨(nextToken (a ++ b)).toView, s ++ b', t ++ b'⟩ := by
  have hread : readToken (skipTrivia (a ++ b)).2 = ((nextToken (a ++ b)).token, t ++ b) :=
    Prod.ext rfl hr
  obtain ⟨gap, hgap⟩ := skipTrivia_suffix (a ++ b)
  have hb := readToken_isBehind hread hi
  obtain ⟨s, hs⟩ : ∃ s, (skipTrivia (a ++ b)).2 = s ++ b := by
    obtain ⟨s, hs⟩ := (List.suffix_append t b).trans hb.1
    exact ⟨s, hs.symm⟩
  rw [hs] at hread hb hgap
  have ha : a = gap ++ s := by
    rw [← List.append_assoc] at hgap
    exact (List.append_cancel_right hgap).symm
  obtain ⟨c, s, rfl⟩ : ∃ c s', s = c :: s' := by
    refine List.exists_cons_of_ne_nil ?_
    rintro rfl
    have hl := hb.2
    rw [List.length_append, List.nil_append] at hl
    omega
  have hc : c ≠ '/' := by
    rintro rfl
    rw [readToken_slash hread] at hi
    exact Bool.false_ne_true hi
  refine ⟨c :: s, hs, fun b' => ?_⟩
  have htrim : IsTrimmed (c :: (s ++ b')) := by
    have hold := skipTriviaFrom_trimmed .plain false (a ++ b)
    rw [← skipTrivia, hs] at hold
    exact IsTrimmed.congr hold hc
  have hskip : skipTrivia (gap ++ (c :: s ++ b)) =
      ((nextToken (a ++ b)).broken, c :: s ++ b) := by
    rw [hgap]
    exact Prod.ext rfl hs
  refine nextToken_eq ?_ (readToken_append hread hi ht b')
  rw [ha, List.append_assoc, ← ha]
  exact skipTrivia_append hskip (by simp) htrim

end DirectImports
