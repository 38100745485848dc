import DirectImports.Proofs.Quoting

/-! How the tokens of an import may be written: names as they are, strings as literals, and between
two tokens any blanks, line ends and comments. Such a text is read as these tokens. -/

namespace DirectImports

/-- What may stand between two tokens, and whether it holds a line end. -/
inductive Trivia : Bool → Text → Prop
  | nil : Trivia false []
  | blank {broken : Bool} {c : Char} {gap : Text} (hc : isGap c = true)
      (later : Trivia broken gap) : Trivia broken (c :: gap)
  | lineEnd {broken : Bool} {c : Char} {gap : Text} (hc : isLineEnd c = true)
      (later : Trivia broken gap) : Trivia true (c :: gap)
  | line {broken : Bool} {c : Char} {comment gap : Text}
      (hm : ∀ d ∈ comment, isLineEnd d = false) (hc : isLineEnd c = true)
      (later : Trivia broken gap) : Trivia true ('/' :: '/' :: (comment ++ c :: gap))
  | block {broken : Bool} {comment gap : Text} (hm : ¬['*', '/'] <:+: comment)
      (later : Trivia broken gap) :
      Trivia (comment.any isLineEnd || broken) ('/' :: '*' :: (comment ++ '*' :: '/' :: gap))

def gapCodes : List Nat :=
  [9, 11, 12, 32, 0x85, 0xa0, 0x1680, 0x2000, 0x2001, 0x2002, 0x2003, 0x2004, 0x2005, 0x2006, 0x2007,
   0x2008, 0x2009, 0x200a, 0x200b, 0x202f, 0x205f, 0x3000, 0xfeff]

theorem isGap_code {c : Char} (h : isGap c = true) : c.toNat ∈ gapCodes := by
  simp only [isGap, Bool.or_eq_true, Bool.and_eq_true, beq_iff_eq, decide_eq_true_eq] at h
  simp only [gapCodes, List.mem_cons, List.not_mem_nil, or_false]
  omega

/-- A character between tokens ends a word, is no line end unless it is said to be one, and is not
part of a mark. -/
theorem isGap_ends {c : Char} (h : isGap c = true) :
    isLineEnd c = false ∧ endsWord c = true ∧ c ≠ '*' ∧ c ≠ '=' ∧ c ≠ '/' ∧ c ≠ '#' := by
  have hall : ∀ n ∈ gapCodes, isLineEnd (Char.ofNat n) = false ∧ endsWord (Char.ofNat n) = true ∧
      Char.ofNat n ≠ '*' ∧ Char.ofNat n ≠ '=' ∧ Char.ofNat n ≠ '/' ∧ Char.ofNat n ≠ '#' := by
    decide +kernel
  have hc := hall c.toNat (isGap_code h)
  rwa [Char.ofNat_toNat] at hc

theorem isLineEnd_ends {c : Char} (h : isLineEnd c = true) :
    endsWord c = true ∧ c ≠ '*' ∧ c ≠ '=' ∧ c ≠ '/' ∧ c ≠ '#' := by
  simp only [isLineEnd, Bool.or_eq_true, beq_iff_eq] at h
  rcases h with ((rfl | rfl) | rfl) | rfl
  all_goals decide +kernel

theorem Trivia.head {broken : Bool} {gap : Text} (h : Trivia broken gap) (hne : gap ≠ []) :
    ∃ c rest, gap = c :: rest ∧ endsWord c = true ∧ c ≠ '*' ∧ c ≠ '=' ∧ c ≠ '#' := by
  cases h with
  | nil => exact absurd rfl hne
  | blank hc _ =>
    obtain ⟨-, hw, hs, he, -, hh⟩ := isGap_ends hc
    exact ⟨_, _, rfl, hw, hs, he, hh⟩
  | lineEnd hc _ =>
    obtain ⟨hw, hs, he, -, hh⟩ := isLineEnd_ends hc
    exact ⟨_, _, rfl, hw, hs, he, hh⟩
  | line | block => exact ⟨'/', _, rfl, by decide +kernel, by decide, by decide, by decide⟩

theorem Trivia.append {a b : Bool} {gap gap' : Text} (h : Trivia a gap) (h' : Trivia b gap') :
    Trivia (a || b) (gap ++ gap') := by
  induction h with
  | nil => exact h'
  | blank hc _ ih => exact .blank hc ih
  | lineEnd hc _ ih => exact .lineEnd hc ih
  | line hm hc _ ih => simpa using Trivia.line hm hc ih
  | block hm _ ih => simpa [Bool.or_assoc] using Trivia.block hm ih

theorem skipTriviaFrom_line {comment text : Text} {c : Char} (broken : Bool)
    (hm : ∀ d ∈ comment, isLineEnd d = false) (hc : isLineEnd c = true) :
    skipTriviaFrom .line broken (comment ++ c :: text) = skipTriviaFrom .plain true text := by
  induction comment with
  | nil => simp [skipTriviaFrom, hc]
  | cons d comment ih =>
    obtain ⟨hd, hm⟩ := List.forall_mem_cons.mp hm
    simpa [skipTriviaFrom, hd] using ih hm

theorem skipTriviaFrom_block {comment text : Text} (broken : Bool)
    (hm : ¬['*', '/'] <:+: comment) :
    skipTriviaFrom .block broken (comment ++ '*' :: '/' :: text) =
      skipTriviaFrom .plain (broken || comment.any isLineEnd) text := by
  induction comment generalizing broken with
  | nil => simp [skipTriviaFrom]
  | cons c comment ih =>
    have hopen : c = '*' → (comment ++ '*' :: '/' :: text).head? ≠ some '/' := by
      rintro rfl hd
      cases comment with
      | nil => simp at hd
      | cons d comment =>
        obtain rfl : d = '/' := by simpa using hd
        exact hm ⟨[], comment, rfl⟩
    have hm' : ¬['*', '/'] <:+: comment := fun hin => hm (hin.trans (List.suffix_cons c comment).isInfix)
    rw [List.cons_append, skipTriviaFrom_block_cons broken hopen, ih _ hm']
    simp [Bool.or_assoc]

theorem Trivia.skipFrom {broken : Bool} {gap code : Text} (h : Trivia broken gap)
    (hc : IsTrimmed code) (before : Bool) :
    skipTriviaFrom .plain before (gap ++ code) = (before || broken, code) := by
  induction h generalizing before with
  | nil => simpa using hc before
  | blank hg _ ih =>
    obtain ⟨hl, -, -, -, hs, -⟩ := isGap_ends hg
    simpa [skipTriviaFrom_plain_cons _ hs, hl, hg] using ih before
  | lineEnd hl _ ih =>
    obtain ⟨-, -, -, hs, -⟩ := isLineEnd_ends hl
    simpa [skipTriviaFrom_plain_cons _ hs, hl] using ih true
  | line hm hl _ ih => simpa [skipTriviaFrom, skipTriviaFrom_line _ hm hl] using ih true
  | @block broken comment gap hm _ ih =>
    simpa [skipTriviaFrom, skipTriviaFrom_block _ hm, Bool.or_assoc] using
      ih (before || comment.any isLineEnd)

theorem Trivia.skip {broken : Bool} {gap code : Text} (h : Trivia broken gap)
    (hc : IsTrimmed code) : skipTrivia (gap ++ code) = (broken, code) := by
  simpa [skipTrivia] using h.skipFrom hc false

/-- A name as it may stand in a text. -/
def IsIdentifier (name : Text) : Prop :=
  name.head?.any isIdentifierStart = true ∧ name.all isIdentifierPart = true

instance (name : Text) : Decidable (IsIdentifier name) :=
  inferInstanceAs (Decidable (_ ∧ _))

theorem IsIdentifier.isPlainWord {name : Text} (h : IsIdentifier name) :
    isPlainWord name = true := by
  obtain ⟨hs, hp⟩ := h
  cases name with
  | nil => simp at hs
  | cons c name =>
    have hs : isIdentifierStart c = true := by simpa using hs
    have hpart := (List.all_eq_true.mp hp) c (.head _)
    have hgap : isGap c = false := by
      refine eq_false_of_ne_true fun hg => ?_
      have hends := (isGap_ends hg).2.1
      simp [endsWord, hpart] at hends
    have hline : isLineEnd c = false := by
      refine eq_false_of_ne_true fun hl => ?_
      have hends := (isLineEnd_ends hl).1
      simp [endsWord, hpart] at hends
    simp [DirectImports.isPlainWord, beginsWord?, hs, hgap, hline, hp]

def importMarks : List (Char × Mark) :=
  [('\x7b', .openBrace), ('\x7d', .closeBrace), ('*', .star), (',', .comma), (';', .semicolon)]

/-- A token of an import, and what it may be written as. -/
inductive TokenText : Token → Text → Prop
  | word {name : Text} (h : IsIdentifier name) : TokenText (.word ⟨name, false⟩) name
  | literal {quote : Char} {value written : Text} (hq : IsQuote quote)
      (h : QuotedText quote value written) :
      TokenText (.literal value) (quote :: (written ++ [quote]))
  | mark {c : Char} {mark : Mark} (h : (c, mark) ∈ importMarks) : TokenText (.mark mark) [c]

/-- Whether two tokens may stand behind each other without anything between them. -/
def Token.mayTouch : Token → Token → Bool
  | .word _, .word _ => false
  | .mark .star, .mark .star => false
  | _, _ => true

/-- Tokens, and how they may be written behind each other. -/
inductive TokensText : List Token → Text → Prop
  | last {token : Token} {text : Text} (h : TokenText token text) : TokensText [token] text
  | next {token second : Token} {tokens : List Token} {text gap rest : Text} {broken : Bool}
      (h : TokenText token text) (hg : Trivia broken gap)
      (ht : gap = [] → token.mayTouch second = true) (later : TokensText (second :: tokens) rest) :
      TokensText (token :: second :: tokens) (text ++ (gap ++ rest))

/-- What must stand behind a token so that it is read no further. -/
def Token.IsEndedBy (token : Token) (behind : Text) : Prop :=
  match token with
  | .word _ => ∃ c rest, behind = c :: rest ∧ endsWord c = true
  | .mark .star => ∀ c ∈ behind.head?, c ≠ '=' ∧ c ≠ '*'
  | _ => True

theorem Token.isEndedBy_of_endsItself {token : Token} (h : token.endsItself = true)
    (behind : Text) : token.IsEndedBy behind := by
  cases token with
  | literal => trivial
  | mark mark => cases mark <;> trivial
  | _ => simp [Token.endsItself] at h

theorem TokenText.nextToken {token : Token} {text behind : Text} (h : TokenText token text)
    (he : token.IsEndedBy behind) :
    nextToken (text ++ behind) = ⟨⟨false, token⟩, text ++ behind, behind⟩ := by
  cases h with
  | word h =>
    obtain ⟨c, rest, rfl, hc⟩ := he
    exact nextToken_plainWord h.isPlainWord hc
  | @literal quote value written hq h =>
    have htrim : IsTrimmed (quote :: (written ++ quote :: behind)) := by
      rcases hq with rfl | rfl <;> exact isTrimmed_cons (by decide) rfl rfl
    have hread := readToken_literal hq (h.readLiteral hq behind)
    simpa using nextToken_eq htrim.skipTrivia hread
  | @mark c mark h =>
    simp only [importMarks, List.mem_cons, Prod.mk.injEq, List.not_mem_nil, or_false] at h
    rcases h with ⟨rfl, rfl⟩ | ⟨rfl, rfl⟩ | ⟨rfl, rfl⟩ | ⟨rfl, rfl⟩ | ⟨rfl, rfl⟩
    · exact nextToken_openBrace behind
    · exact nextToken_closeBrace behind
    · have hstar : readMark? '*' behind = some (.star, behind) := by
        cases behind with
        | nil => rfl
        | cons d rest =>
          obtain ⟨he, hs⟩ := he d rfl
          simp [readMark?, singleMark?, operatorMark, spelledMark, Ne.symm he, Ne.symm hs]
      exact nextToken_eq (isTrimmed_cons (by decide) rfl rfl).skipTrivia (readToken_mark rfl hstar)
    · exact nextToken_single behind rfl rfl
    · exact nextToken_semicolon behind

theorem Trivia.nextToken {broken : Bool} {gap text rest : Text} {token : Token}
    (hg : Trivia broken gap) (h : nextToken text = ⟨⟨false, token⟩, text, rest⟩) :
    nextToken (gap ++ text) = ⟨⟨broken, token⟩, text, rest⟩ := by
  have htrim : IsTrimmed text := isTrimmed_of_skipTrivia (congrArg Lexed.start h)
  simp only [DirectImports.nextToken, htrim.skipTrivia, Lexed.mk.injEq, View.mk.injEq, true_and] at h
  exact nextToken_eq (hg.skip htrim) (Prod.ext h.1 h.2)

theorem TokenText.head {token : Token} {text : Text} (h : TokenText token text) :
    ∃ c rest, text = c :: rest ∧ c ≠ '=' ∧
      ((∃ word, token = .word word) ∨ endsWord c = true) ∧ (token = .mark .star ∨ c ≠ '*') := by
  cases h with
  | word h =>
    obtain ⟨hs, hp⟩ := h
    cases text with
    | nil => simp at hs
    | cons c name =>
      have hc := (List.all_eq_true.mp hp) c (.head _)
      refine ⟨c, name, rfl, ?_, .inl ⟨_, rfl⟩, .inr ?_⟩
      · rintro rfl
        exact absurd hc (by decide +kernel)
      · rintro rfl
        exact absurd hc (by decide +kernel)
  | literal hq _ =>
    refine ⟨_, _, rfl, ?_⟩
    rcases hq with rfl | rfl
    · exact ⟨by decide, .inr (by decide +kernel), .inr (by decide)⟩
    · exact ⟨by decide, .inr (by decide +kernel), .inr (by decide)⟩
  | mark h =>
    have hall : ∀ pair ∈ importMarks, pair.1 ≠ '=' ∧ endsWord pair.1 = true ∧
        (Token.mark pair.2 = .mark .star ∨ pair.1 ≠ '*') := by
      decide +kernel
    obtain ⟨he, hw, hs⟩ := hall _ h
    exact ⟨_, _, rfl, he, .inr hw, hs⟩

theorem TokensText.head {token : Token} {tokens : List Token} {text : Text}
    (h : TokensText (token :: tokens) text) :
    ∃ first rest, TokenText token first ∧ text = first ++ rest := by
  cases h with
  | last h => exact ⟨text, [], h, (List.append_nil _).symm⟩
  | next h => exact ⟨_, _, h, rfl⟩

/-- A token ends before a gap, and before a token that may touch it. -/
theorem Token.isEndedBy_next {token second : Token} {tokens : List Token} {text gap : Text}
    {broken : Bool} (hg : Trivia broken gap) (ht : gap = [] → token.mayTouch second = true)
    (h : TokensText (second :: tokens) text) (behind : Text) :
    token.IsEndedBy (gap ++ (text ++ behind)) := by
  obtain ⟨c, rest, htext, hw, hs, he⟩ : ∃ c rest, gap ++ (text ++ behind) = c :: rest ∧
      ((∃ word, token = .word word) → endsWord c = true) ∧ (token = .mark .star → c ≠ '*') ∧
      c ≠ '=' := by
    by_cases hgap : gap = []
    · obtain ⟨first, later, hf, rfl⟩ := h.head
      obtain ⟨c, rest, rfl, he, hw, hs⟩ := hf.head
      refine ⟨c, rest ++ (later ++ behind), by simp [hgap], ?_, ?_, he⟩
      · rintro ⟨word, rfl⟩
        refine hw.resolve_left ?_
        rintro ⟨other, rfl⟩
        exact Bool.false_ne_true (ht hgap)
      · rintro rfl
        refine hs.resolve_left ?_
        rintro rfl
        exact Bool.false_ne_true (ht hgap)
    · obtain ⟨c, rest, rfl, hw, hs, he, -⟩ := hg.head hgap
      exact ⟨c, rest ++ (text ++ behind), rfl, fun _ => hw, fun _ => hs, he⟩
  rw [htext]
  cases token with
  | word word => exact ⟨c, rest, rfl, hw ⟨word, rfl⟩⟩
  | mark mark =>
    cases mark with
    | star =>
      intro d hd
      obtain rfl := Option.some.inj hd
      exact ⟨he, hs rfl⟩
    | _ => trivial
  | _ => trivial

/-- The tokens at the beginning of a text, and what is left behind them. -/
inductive Lexes : Text → List Token → Text → Prop
  | nil {text : Text} : Lexes text [] text
  | cons {text rest : Text} {token : Token} {tokens : List Token}
      (ht : (nextToken text).token = token) (later : Lexes (nextToken text).rest tokens rest) :
      Lexes text (token :: tokens) rest

/-- Written tokens are read back, whatever stands behind the last one. -/
theorem TokensText.lexes {tokens : List Token} {text gap : Text} {broken : Bool}
    (h : TokensText tokens text) (hg : Trivia broken gap)
    (hl : ∀ last ∈ tokens.getLast?, last.endsItself = true) (behind : Text) :
    Lexes (gap ++ (text ++ behind)) tokens behind := by
  induction h generalizing gap broken with
  | last h =>
    have he := Token.isEndedBy_of_endsItself (hl _ rfl) behind
    have hread := hg.nextToken (h.nextToken he)
    refine .cons (congrArg (fun lexed => lexed.token) hread) ?_
    rw [hread]
    exact .nil
  | @next token second tokens text gap' rest _ h hg' ht later ih =>
    have he : token.IsEndedBy (gap' ++ (rest ++ behind)) := Token.isEndedBy_next hg' ht later behind
    have hread := hg.nextToken (h.nextToken he)
    rw [List.append_assoc, List.append_assoc]
    refine .cons (congrArg (fun lexed => lexed.token) hread) ?_
    rw [hread]
    exact ih hg' hl

end DirectImports
