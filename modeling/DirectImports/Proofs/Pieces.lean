import DirectImports.Import.Source
import DirectImports.Proofs.Alike

/-! How a source text is taken apart. Its pieces are the text again, and each declaration among
them has the span of its piece. -/

namespace DirectImports

theorem textBefore_append (a b : Text) : textBefore (a ++ b) b = a := by
  simp [textBefore]

theorem IsTrimmed.start {text : Text} (h : IsTrimmed text) : (nextToken text).start = text := by
  simp only [nextToken, h.skipTrivia]

theorem Closes.passes {text rest : Text} (h : Closes text rest) : Passes text rest := by
  obtain ⟨last, hl, he, rfl⟩ := h
  exact hl.passes ⟨Token.inImport_of_endsItself he, .refl _⟩

theorem readImport_eq {typescript : Bool} {text rest : Text} {declaration : ImportDeclaration}
    (h : readImport typescript text = some (declaration, rest)) :
    ∃ clause source behind, readKeyword "import" text = some behind ∧
      readAfterImport typescript behind = some (clause, source, rest) ∧
      declaration = ⟨⟨0, byteLength (textBefore text rest)⟩, some source, clause.specifiers,
        clause.isTypeOnly⟩ := by
  obtain ⟨behind, hk, h⟩ := Option.bind_eq_some_iff.mp h
  obtain ⟨⟨clause, source, _⟩, ha, h⟩ := Option.bind_eq_some_iff.mp h
  obtain ⟨rfl, rfl⟩ := Prod.mk.inj (Option.some.inj h)
  exact ⟨clause, source, behind, hk, ha, rfl⟩

/-- No parenthesis or dot stands in a declaration. -/
theorem Closes.not_opens {text rest : Text} (h : Closes text rest) :
    (nextToken text).isOneOf [.openParen, .dot] = false := by
  have hi := h.passes.1
  unfold View.isOneOf
  split
  next mark hm =>
    rw [hm] at hi
    cases mark <;> first | rfl | simp [Token.inImport, Mark.inImport] at hi
  next => rfl

theorem Closes.not_isImportExpression {text rest : Text} (h : Closes (nextToken text).rest rest) :
    (nextToken text).isImportExpression = false := by
  rw [Lexed.isImportExpression, Lexed.next, h.not_opens, Bool.and_false]

theorem beginning?_declaration_iff {language : Language} {text behind : Text}
    {declaration : ImportDeclaration} (ht : IsTrimmed text) :
    beginning? language text = some (.declaration declaration behind) ↔
      readImport language.typescript text = some (declaration, behind) := by
  constructor
  · intro h
    unfold beginning? importHere? at h
    dsimp only at h
    rw [ht.start] at h
    split at h
    · simp at h
    · split at h
      next found hf =>
        obtain ⟨-, hf⟩ := Option.ite_none_right_eq_some.mp hf
        simp only [Option.some.injEq, Beginning.declaration.injEq] at h
        rw [hf, h.1, h.2]
      next =>
        obtain ⟨length, -, h⟩ := Option.bind_eq_some_iff.mp h
        split at h <;> simp at h
  · intro h
    obtain ⟨clause, source, u, hk, ha, -⟩ := readImport_eq h
    obtain ⟨⟨word, hw, hword⟩, rfl⟩ := readKeyword_eq hk
    have himport : (nextToken text).isWord "import" = true :=
      View.isWord_iff.mpr ⟨word, hw, hword⟩
    have hexpr := (readAfterImport_closes ha).not_isImportExpression
    have hend : (nextToken text).isEnd = false := by simp [View.isEnd, hw]
    simp [beginning?, importHere?, ht.start, himport, hexpr, hend, h]

theorem Reading.length?_le {α : Type} {reading : Reading α} {text : Text} {length : Nat}
    (h : reading.length? text = some length) : length ≤ text.length := by
  cases reading with
  | done result behind =>
    obtain rfl := Option.some.inj h
    exact Nat.sub_le _ _
  | refused | unsettled => cases h

theorem beginning?_statement {language : Language} {text : Text} {length : Nat}
    (h : beginning? language text = some (.statement length)) :
    0 < length ∧ length ≤ text.length := by
  unfold beginning? at h
  dsimp only at h
  split at h
  · simp at h
  · split at h
    · simp at h
    · obtain ⟨n, hn, h⟩ := Option.bind_eq_some_iff.mp h
      split at h
      · simp at h
      next hz =>
        simp only [pure, Option.some.injEq, Beginning.statement.injEq] at h
        obtain rfl := h
        exact ⟨Nat.pos_of_ne_zero hz, Reading.length?_le hn⟩

/-- How the rest of a text behind a piece is taken apart. -/
inductive Reads (language : Language) : Text → List Piece → Prop
  | finish {text : Text} (hb : beginning? language (skipTrivia text).2 = some .finish) :
      Reads language text [.gap text]
  | declaration {gap text behind : Text} {declaration : ImportDeclaration} {pieces : List Piece}
      (hg : (skipTrivia (gap ++ (text ++ behind))).2 = text ++ behind)
      (hb : readImport language.typescript (text ++ behind) = some (declaration, behind))
      (later : Reads language behind pieces) :
      Reads language (gap ++ (text ++ behind)) (.gap gap :: .declaration text declaration :: pieces)
  | statement {gap text behind : Text} {pieces : List Piece}
      (hg : (skipTrivia (gap ++ (text ++ behind))).2 = text ++ behind)
      (hb : beginning? language (text ++ behind) = some (.statement text.length))
      (later : Reads language behind pieces) :
      Reads language (gap ++ (text ++ behind)) (.gap gap :: .statement text :: pieces)

theorem piecesFrom_reads {language : Language} {fuel : Nat} {text : Text} {pieces : List Piece}
    (h : piecesFrom language fuel text = some pieces) : Reads language text pieces := by
  induction fuel generalizing text pieces with
  | zero => simp [piecesFrom] at h
  | succ fuel ih =>
    unfold piecesFrom at h
    dsimp only at h
    obtain ⟨gap, hgap⟩ := skipTrivia_suffix text
    have ht := skipTrivia_trimmed text
    split at h
    next => simp at h
    next hb =>
      obtain rfl := Option.some.inj h
      exact .finish hb
    next declaration behind hb =>
      rw [beginning?_declaration_iff ht] at hb
      obtain ⟨code, hcode⟩ := (readImport_closes hb).reaches.suffix
      obtain ⟨later, hl, h⟩ := Option.bind_eq_some_iff.mp h
      obtain rfl := Option.some.inj h
      generalize hs : (skipTrivia text).2 = start at *
      subst hcode hgap
      rw [textBefore_append, textBefore_append]
      exact .declaration hs hb (ih hl)
    next length hb =>
      obtain ⟨later, hl, h⟩ := Option.bind_eq_some_iff.mp h
      obtain rfl := Option.some.inj h
      obtain ⟨-, hle⟩ := beginning?_statement hb
      generalize hs : (skipTrivia text).2 = start at *
      have hcode := List.take_append_drop length start
      have hlen : (start.take length).length = length := List.length_take_of_le hle
      subst hgap
      rw [textBefore_append]
      have hread := Reads.statement (by rw [hcode, hs]) (by rw [hcode, hb, hlen]) (ih hl)
      rwa [hcode] at hread

/-- The steps suffice for a text that is taken apart at all, since each piece takes up some. -/
theorem Reads.complete {language : Language} {text : Text} {pieces : List Piece}
    (h : Reads language text pieces) {fuel : Nat} (hf : text.length < fuel) :
    piecesFrom language fuel text = some pieces := by
  induction h generalizing fuel with
  | finish hb =>
    obtain ⟨fuel, rfl⟩ := Nat.exists_eq_add_one_of_ne_zero (Nat.ne_zero_of_lt hf)
    simp [piecesFrom, hb]
  | @declaration gap text behind declaration pieces hg hb later ih =>
    obtain ⟨fuel, rfl⟩ := Nat.exists_eq_add_one_of_ne_zero (Nat.ne_zero_of_lt hf)
    have ht := isTrimmed_of_skipTrivia hg
    have hlt := (readImport_closes hb).length_lt
    have hl : behind.length < fuel := by
      rw [List.length_append] at hf
      omega
    simp [piecesFrom, hg, (beginning?_declaration_iff ht).mpr hb, textBefore_append,
      ih hl]
  | @statement gap text behind pieces hg hb later ih =>
    obtain ⟨fuel, rfl⟩ := Nat.exists_eq_add_one_of_ne_zero (Nat.ne_zero_of_lt hf)
    have hpos := (beginning?_statement hb).1
    have hl : behind.length < fuel := by
      simp only [List.length_append] at hf
      omega
    simp [piecesFrom, hg, hb, textBefore_append, ih hl]

def textOf (pieces : List Piece) : Text :=
  pieces.flatMap Piece.text

theorem Reads.text_eq {language : Language} {text : Text} {pieces : List Piece}
    (h : Reads language text pieces) : textOf pieces = text := by
  induction h with
  | finish => simp [textOf, Piece.text]
  | declaration _ _ _ ih | statement _ _ _ ih =>
    simp only [textOf, List.flatMap_cons, Piece.text] at ih ⊢
    rw [ih]

theorem skipInterpreter_suffix (text : Text) : skipInterpreter text <:+ text := by
  unfold skipInterpreter
  split
  · exact (List.dropWhile_suffix _).trans ((List.suffix_cons _ _).trans (List.suffix_cons _ _))
  · exact List.suffix_rfl

theorem pieces?_eq_some_iff {language : Language} {text : Text} {pieces : List Piece} :
    pieces? language text = some pieces ↔
      ∃ line rest later, text = line ++ rest ∧ skipInterpreter text = rest ∧
        pieces = .gap line :: later ∧ Reads language rest later := by
  constructor
  · intro h
    obtain ⟨later, hl, h⟩ := Option.bind_eq_some_iff.mp h
    obtain rfl := Option.some.inj h
    obtain ⟨line, hline⟩ := skipInterpreter_suffix text
    have hbefore := textBefore_append line (skipInterpreter text)
    rw [hline] at hbefore
    exact ⟨line, _, later, hline.symm, rfl, by rw [hbefore], piecesFrom_reads hl⟩
  · rintro ⟨line, rest, later, rfl, hr, rfl, h⟩
    have hf : rest.length < (line ++ rest).length + 1 := by
      rw [List.length_append]
      omega
    have hp := h.complete hf
    simp only [pieces?, hr, hp, textBefore_append]
    rfl

theorem pieces?_text {language : Language} {text : Text} {pieces : List Piece}
    (h : pieces? language text = some pieces) : textOf pieces = text := by
  obtain ⟨line, rest, later, rfl, -, rfl, hl⟩ := pieces?_eq_some_iff.mp h
  have ht := hl.text_eq
  simp only [textOf, List.flatMap_cons, Piece.text] at ht ⊢
  rw [ht]

end DirectImports
