import DirectImports.Import.Grammar
import DirectImports.Proofs.Token

/-! What the readers of import declarations leave behind. They move forward over tokens of import
declarations and over nothing else. -/

namespace DirectImports

/-- `rest` is left of a text behind some tokens of import declarations. -/
inductive Reaches : Text → Text → Prop
  | refl (text : Text) : Reaches text text
  | next {text rest : Text} (h : (nextToken text).token.inImport = true)
      (later : Reaches (nextToken text).rest rest) : Reaches text rest

theorem Reaches.trans {a b c : Text} (h : Reaches a b) (h' : Reaches b c) : Reaches a c := by
  induction h with
  | refl => exact h'
  | next hi _ ih => exact .next hi (ih h')

theorem Reaches.suffix {text rest : Text} (h : Reaches text rest) : rest <:+ text := by
  induction h with
  | refl => exact List.suffix_rfl
  | next hi _ ih => exact ih.trans (nextToken_isBehind hi).1

theorem Reaches.length_le {text rest : Text} (h : Reaches text rest) :
    rest.length ≤ text.length :=
  h.suffix.length_le

/-- A text behind at least one token. -/
def Passes (text rest : Text) : Prop :=
  (nextToken text).token.inImport = true ∧ Reaches (nextToken text).rest rest

theorem Passes.reaches {text rest : Text} (h : Passes text rest) : Reaches text rest :=
  .next h.1 h.2

theorem Passes.trans {a b c : Text} (h : Passes a b) (h' : Reaches b c) : Passes a c :=
  ⟨h.1, h.2.trans h'⟩

theorem Reaches.passes {a b c : Text} (h : Reaches a b) (h' : Passes b c) : Passes a c := by
  cases h with
  | refl => exact h'
  | next hi later => exact ⟨hi, later.trans h'.reaches⟩

theorem Passes.length_lt {text rest : Text} (h : Passes text rest) :
    rest.length < text.length :=
  Nat.lt_of_le_of_lt h.2.length_le (nextToken_isBehind h.1).2

theorem View.is_iff {view : View} {mark : Mark} :
    view.is mark = true ↔ view.token = .mark mark := by
  cases ht : view.token <;> simp [View.is, ht]

theorem View.isWord_iff {view : View} {keyword : String} :
    view.isWord keyword = true ↔
      ∃ word : Word, view.token = .word word ∧ word.text = keyword.toList := by
  cases ht : view.token <;> simp [View.isWord, Word.is, ht]

theorem readMark_eq {mark : Mark} {text rest : Text} (h : readMark mark text = some rest) :
    (nextToken text).token = .mark mark ∧ rest = (nextToken text).rest := by
  obtain ⟨hm, h⟩ := Option.ite_none_right_eq_some.mp h
  exact ⟨View.is_iff.mp hm, (Option.some.inj h).symm⟩

theorem readKeyword_eq {keyword : String} {text rest : Text}
    (h : readKeyword keyword text = some rest) :
    (∃ word : Word, (nextToken text).token = .word word ∧ word.text = keyword.toList) ∧
      rest = (nextToken text).rest := by
  obtain ⟨hw, h⟩ := Option.ite_none_right_eq_some.mp h
  exact ⟨View.isWord_iff.mp hw, (Option.some.inj h).symm⟩

theorem readString_eq {text value rest : Text} (h : readString text = some (value, rest)) :
    (nextToken text).token = .literal value ∧ rest = (nextToken text).rest := by
  simp only [readString] at h
  split at h
  next ho =>
    obtain ⟨rfl, rfl⟩ := Prod.mk.inj (Option.some.inj h)
    exact ⟨ho, rfl⟩
  next => simp at h

theorem readBinding_eq {text name rest : Text} (h : readBinding text = some (name, rest)) :
    (∃ word : Word, (nextToken text).token = .word word ∧ word.text = name ∧
      isReserved name = false) ∧ rest = (nextToken text).rest := by
  simp only [readBinding] at h
  split at h
  next word ho =>
    split at h
    next => simp at h
    next hr =>
      obtain ⟨rfl, rfl⟩ := Prod.mk.inj (Option.some.inj h)
      exact ⟨⟨word, ho, rfl, eq_false_of_ne_true hr⟩, rfl⟩
  next => simp at h

theorem readExportName_eq {text name rest : Text}
    (h : readExportName text = some (name, rest)) :
    ((∃ word : Word, (nextToken text).token = .word word ∧ word.text = name) ∨
      (nextToken text).token = .literal name) ∧ rest = (nextToken text).rest := by
  simp only [readExportName] at h
  split at h
  next word ho =>
    obtain ⟨rfl, rfl⟩ := Prod.mk.inj (Option.some.inj h)
    exact ⟨.inl ⟨word, ho, rfl⟩, rfl⟩
  next ho =>
    obtain ⟨rfl, rfl⟩ := Prod.mk.inj (Option.some.inj h)
    exact ⟨.inr ho, rfl⟩
  next => simp at h

theorem passes_of_token {text rest : Text} {token : Token}
    (ht : (nextToken text).token = token) (hr : rest = (nextToken text).rest)
    (hi : token.inImport = true) : Passes text rest :=
  ⟨ht ▸ hi, hr ▸ .refl _⟩

theorem readMark_passes {mark : Mark} {text rest : Text} (h : readMark mark text = some rest)
    (hm : mark.inImport = true) : Passes text rest :=
  passes_of_token (readMark_eq h).1 (readMark_eq h).2 hm

theorem readKeyword_passes {keyword : String} {text rest : Text}
    (h : readKeyword keyword text = some rest) : Passes text rest := by
  obtain ⟨⟨word, ht, -⟩, hr⟩ := readKeyword_eq h
  exact passes_of_token ht hr rfl

theorem readString_passes {text value rest : Text} (h : readString text = some (value, rest)) :
    Passes text rest :=
  passes_of_token (readString_eq h).1 (readString_eq h).2 rfl

theorem readBinding_passes {text name rest : Text} (h : readBinding text = some (name, rest)) :
    Passes text rest := by
  obtain ⟨⟨word, ht, -⟩, hr⟩ := readBinding_eq h
  exact passes_of_token ht hr rfl

theorem readExportName_passes {text name rest : Text}
    (h : readExportName text = some (name, rest)) : Passes text rest := by
  obtain ⟨⟨word, ht, -⟩ | ht, hr⟩ := readExportName_eq h
  · exact passes_of_token ht hr rfl
  · exact passes_of_token ht hr rfl

theorem readAlias_reaches {name text rest : Text} {isType : Bool} {specifier : Specifier}
    (h : readAlias name isType text = some (specifier, rest)) : Reaches text rest := by
  unfold readAlias at h
  split at h
  next behind hk =>
    obtain ⟨⟨localName, _⟩, hn, h⟩ := Option.bind_eq_some_iff.mp h
    obtain ⟨-, rfl⟩ := Prod.mk.inj (Option.some.inj h)
    exact (readKeyword_passes hk).reaches.trans (readExportName_passes hn).reaches
  next =>
    obtain ⟨-, rfl⟩ := Prod.mk.inj (Option.some.inj h)
    exact .refl _

theorem readAfterTypeAs_reaches {typescript : Bool} {text rest : Text} {specifier : Specifier}
    (h : readAfterTypeAs typescript text = some (specifier, rest)) : Reaches text rest := by
  unfold readAfterTypeAs at h
  split at h
  next behind hk =>
    have hp := (readKeyword_passes hk).reaches
    split at h
    next localName _ hn =>
      obtain ⟨-, h⟩ := Option.ite_none_right_eq_some.mp h
      obtain ⟨-, rfl⟩ := Prod.mk.inj (Option.some.inj h)
      exact hp.trans (readExportName_passes hn).reaches
    next =>
      obtain ⟨-, rfl⟩ := Prod.mk.inj (Option.some.inj h)
      exact hp
  next =>
    split at h
    next localName _ hn =>
      obtain ⟨-, rfl⟩ := Prod.mk.inj (Option.some.inj h)
      exact (readExportName_passes hn).reaches
    next =>
      obtain ⟨-, h⟩ := Option.ite_none_right_eq_some.mp h
      obtain ⟨-, rfl⟩ := Prod.mk.inj (Option.some.inj h)
      exact .refl _

theorem readAfterType_reaches {typescript : Bool} {text rest : Text} {specifier : Specifier}
    (h : readAfterType typescript text = some (specifier, rest)) : Reaches text rest := by
  unfold readAfterType at h
  split at h
  next behind hk => exact (readKeyword_passes hk).reaches.trans (readAfterTypeAs_reaches h)
  next =>
    split at h
    next importedName _ hn =>
      obtain ⟨-, h⟩ := Option.ite_none_right_eq_some.mp h
      exact (readExportName_passes hn).reaches.trans (readAlias_reaches h)
    next =>
      obtain ⟨-, rfl⟩ := Prod.mk.inj (Option.some.inj h)
      exact .refl _

theorem readSpecifier_passes {typescript : Bool} {text rest : Text} {specifier : Specifier}
    (h : readSpecifier typescript text = some (specifier, rest)) : Passes text rest := by
  simp only [readSpecifier] at h
  split at h
  next word ht =>
    refine ⟨ht ▸ rfl, ?_⟩
    split at h
    · exact readAfterType_reaches h
    · exact readAlias_reaches h
  next value ht => exact ⟨ht ▸ rfl, readAlias_reaches h⟩
  next => simp at h

theorem readSpecifiers_passes {typescript : Bool} {fuel : Nat} {text rest : Text}
    {specifiers : List Specifier}
    (h : readSpecifiers typescript fuel text = some (specifiers, rest)) : Passes text rest := by
  induction fuel generalizing text specifiers with
  | zero => simp [readSpecifiers] at h
  | succ fuel ih =>
    unfold readSpecifiers at h
    split at h
    next behind hm =>
      obtain ⟨-, rfl⟩ := Prod.mk.inj (Option.some.inj h)
      exact readMark_passes hm rfl
    next =>
      obtain ⟨⟨specifier, behind⟩, hs, h⟩ := Option.bind_eq_some_iff.mp h
      have hp := readSpecifier_passes hs
      dsimp only at h
      split at h
      next next hm =>
        obtain ⟨⟨later, _⟩, hl, h⟩ := Option.bind_eq_some_iff.mp h
        obtain ⟨-, rfl⟩ := Prod.mk.inj (Option.some.inj h)
        exact hp.trans ((readMark_passes hm rfl).trans (ih hl).reaches).reaches
      next =>
        obtain ⟨_, hm, h⟩ := Option.bind_eq_some_iff.mp h
        obtain ⟨-, rfl⟩ := Prod.mk.inj (Option.some.inj h)
        exact hp.trans (readMark_passes hm rfl).reaches

theorem readBraced_passes {typescript : Bool} {text rest : Text} {specifiers : List Specifier}
    (h : readBraced typescript text = some (specifiers, rest)) : Passes text rest := by
  unfold readBraced at h
  split at h
  next behind hm =>
    obtain ⟨_, hk, h⟩ := Option.bind_eq_some_iff.mp h
    obtain ⟨⟨localName, _⟩, hb, h⟩ := Option.bind_eq_some_iff.mp h
    obtain ⟨-, rfl⟩ := Prod.mk.inj (Option.some.inj h)
    exact (readMark_passes hm rfl).trans
      ((readKeyword_passes hk).trans (readBinding_passes hb).reaches).reaches
  next =>
    obtain ⟨_, hm, h⟩ := Option.bind_eq_some_iff.mp h
    exact (readMark_passes hm rfl).trans (readSpecifiers_passes h).reaches

theorem readBindings_passes {typescript : Bool} {text rest : Text} {specifiers : List Specifier}
    (h : readBindings typescript text = some (specifiers, rest)) : Passes text rest := by
  unfold readBindings at h
  split at h
  next localName behind hb =>
    have hp := readBinding_passes hb
    split at h
    next _ hm =>
      obtain ⟨⟨others, _⟩, hs, h⟩ := Option.bind_eq_some_iff.mp h
      obtain ⟨-, rfl⟩ := Prod.mk.inj (Option.some.inj h)
      exact hp.trans ((readMark_passes hm rfl).trans (readBraced_passes hs).reaches).reaches
    next =>
      obtain ⟨-, rfl⟩ := Prod.mk.inj (Option.some.inj h)
      exact hp
  next => exact readBraced_passes h

theorem readSourceBinding_eq {typescript : Bool} {text rest : Text}
    {specifiers : List Specifier}
    (h : readSourceBinding typescript text = some (specifiers, rest)) :
    ∃ name, specifiers = [.byDefault name] ∧ readBinding text = some (name, rest) := by
  obtain ⟨⟨name, _⟩, hb, h⟩ := Option.bind_eq_some_iff.mp h
  dsimp only at h
  split at h
  next => simp at h
  next =>
    obtain ⟨rfl, rfl⟩ := Prod.mk.inj (Option.some.inj h)
    exact ⟨name, rfl, hb⟩

theorem readPhase_passes {typescript : Bool} {text rest : Text} {specifiers : List Specifier}
    (h : readPhase typescript text = some (specifiers, rest)) : Passes text rest := by
  unfold readPhase at h
  split at h
  next behind _ hk =>
    split at h
    · obtain ⟨name, -, hb⟩ := readSourceBinding_eq h
      exact (readKeyword_passes hk).trans (readBinding_passes hb).reaches
    · exact readBindings_passes h
  next behind _ hk =>
    split at h
    · exact (readKeyword_passes hk).trans (readBindings_passes h).reaches
    · exact readBindings_passes h
  next => exact readBindings_passes h

theorem readModified_passes {typescript : Bool} {text rest : Text} {clause : ImportClause}
    (h : readModified typescript text = some (clause, rest)) : Passes text rest := by
  unfold readModified at h
  split at h
  next behind hk =>
    split at h
    · split at h
      · simp at h
      · obtain ⟨⟨specifiers, _⟩, hb, h⟩ := Option.bind_eq_some_iff.mp h
        obtain ⟨-, rfl⟩ := Prod.mk.inj (Option.some.inj h)
        exact (readKeyword_passes hk).trans (readBindings_passes hb).reaches
    · obtain ⟨⟨specifiers, _⟩, hb, h⟩ := Option.bind_eq_some_iff.mp h
      obtain ⟨-, rfl⟩ := Prod.mk.inj (Option.some.inj h)
      exact readBindings_passes hb
  next =>
    obtain ⟨⟨specifiers, _⟩, hb, h⟩ := Option.bind_eq_some_iff.mp h
    obtain ⟨-, rfl⟩ := Prod.mk.inj (Option.some.inj h)
    exact readPhase_passes hb

/-- A clause is empty before a string or a bare `from`, and else it is read up to its `from`. -/
theorem readClause_eq {typescript : Bool} {text rest : Text} {clause : ImportClause}
    (h : readClause typescript text = some (clause, rest)) :
    ((readString text).isSome = true ∧ clause = ⟨false, []⟩ ∧ rest = text) ∨
    (readString text = none ∧ isBareFrom text = true ∧ clause = ⟨false, []⟩ ∧
      readKeyword "from" text = some rest) ∨
    (readString text = none ∧ isBareFrom text = false ∧ ∃ behind,
      readModified typescript text = some (clause, behind) ∧
      readKeyword "from" behind = some rest) := by
  unfold readClause at h
  split at h
  next hs =>
    obtain ⟨rfl, rfl⟩ := Prod.mk.inj (Option.some.inj h)
    exact .inl ⟨by rw [hs]; rfl, rfl, rfl⟩
  next hs =>
    dsimp only at h
    split at h
    next hb =>
      obtain ⟨_, hk, h⟩ := Option.bind_eq_some_iff.mp h
      obtain rfl := Option.some.inj hk
      obtain ⟨_, hk, h⟩ := Option.bind_eq_some_iff.mp h
      obtain ⟨rfl, rfl⟩ := Prod.mk.inj (Option.some.inj h)
      exact .inr (.inl ⟨hs, hb, rfl, hk⟩)
    next hb =>
      obtain ⟨⟨clause, behind⟩, hc, h⟩ := Option.bind_eq_some_iff.mp h
      obtain ⟨_, hk, h⟩ := Option.bind_eq_some_iff.mp h
      obtain ⟨rfl, rfl⟩ := Prod.mk.inj (Option.some.inj h)
      exact .inr (.inr ⟨hs, eq_false_of_ne_true hb, behind, hc, hk⟩)

theorem readClause_reaches {typescript : Bool} {text rest : Text} {clause : ImportClause}
    (h : readClause typescript text = some (clause, rest)) : Reaches text rest := by
  rcases readClause_eq h with ⟨-, -, rfl⟩ | ⟨-, -, -, hk⟩ | ⟨-, -, behind, hc, hk⟩
  · exact .refl _
  · exact (readKeyword_passes hk).reaches
  · exact (readModified_passes hc).reaches.trans (readKeyword_passes hk).reaches

theorem readAttribute_passes {text rest : Text} (h : readAttribute text = some rest) :
    Passes text rest := by
  obtain ⟨⟨key, _⟩, hn, h⟩ := Option.bind_eq_some_iff.mp h
  obtain ⟨_, hm, h⟩ := Option.bind_eq_some_iff.mp h
  obtain ⟨⟨value, _⟩, hs, h⟩ := Option.bind_eq_some_iff.mp h
  obtain rfl := Option.some.inj h
  exact (readExportName_passes hn).trans
    ((readMark_passes hm rfl).trans (readString_passes hs).reaches).reaches

/-- `rest` is left of a text behind some tokens, the last of which ends by itself. -/
def Closes (text rest : Text) : Prop :=
  ∃ last, Reaches text last ∧ (nextToken last).token.endsItself = true ∧
    rest = (nextToken last).rest

theorem Reaches.closes {a b c : Text} (h : Reaches a b) (h' : Closes b c) : Closes a c := by
  obtain ⟨last, hl, he, hr⟩ := h'
  exact ⟨last, h.trans hl, he, hr⟩

theorem Token.inImport_of_endsItself {token : Token} (h : token.endsItself = true) :
    token.inImport = true := by
  cases token with
  | mark mark => exact (Bool.and_eq_true_iff.mp h).1
  | literal => rfl
  | _ => simp [Token.endsItself] at h

theorem Closes.reaches {text rest : Text} (h : Closes text rest) : Reaches text rest := by
  obtain ⟨last, hl, he, rfl⟩ := h
  exact hl.trans (.next (Token.inImport_of_endsItself he) (.refl _))

theorem Closes.length_lt {text rest : Text} (h : Closes text rest) :
    rest.length < text.length := by
  obtain ⟨last, hl, he, rfl⟩ := h
  have hi := Token.inImport_of_endsItself he
  exact Nat.lt_of_lt_of_le (nextToken_isBehind hi).2 hl.length_le

theorem readMark_closes {mark : Mark} {text rest : Text} (h : readMark mark text = some rest)
    (hm : (Token.mark mark).endsItself = true) : Closes text rest :=
  ⟨text, .refl text, (readMark_eq h).1 ▸ hm, (readMark_eq h).2⟩

theorem readString_closes {text value rest : Text} (h : readString text = some (value, rest)) :
    Closes text rest :=
  ⟨text, .refl text, (readString_eq h).1 ▸ rfl, (readString_eq h).2⟩

theorem readAttributes_closes {fuel : Nat} {text rest : Text}
    (h : readAttributes fuel text = some rest) : Closes text rest := by
  induction fuel generalizing text with
  | zero => simp [readAttributes] at h
  | succ fuel ih =>
    unfold readAttributes at h
    split at h
    next behind hm =>
      obtain rfl := Option.some.inj h
      exact readMark_closes hm rfl
    next =>
      obtain ⟨behind, ha, h⟩ := Option.bind_eq_some_iff.mp h
      have hp := (readAttribute_passes ha).reaches
      split at h
      next _ hm => exact (hp.trans (readMark_passes hm rfl).reaches).closes (ih h)
      next => exact hp.closes (readMark_closes h rfl)

theorem readAttributeKeyword_passes {text rest : Text}
    (h : readAttributeKeyword text = some rest) : Passes text rest := by
  obtain ⟨hw, h⟩ := Option.ite_none_right_eq_some.mp h
  have hi : ∃ word : Word, (nextToken text).token = .word word := by
    rcases Bool.or_eq_true_iff.mp hw with hw | hw
    · obtain ⟨word, ht, -⟩ := View.isWord_iff.mp hw
      exact ⟨word, ht⟩
    · obtain ⟨word, ht, -⟩ := View.isWord_iff.mp (Bool.and_eq_true_iff.mp hw).1
      exact ⟨word, ht⟩
  obtain ⟨word, ht⟩ := hi
  exact passes_of_token ht (Option.some.inj h).symm rfl

theorem readAttributeClause_closes {text rest : Text}
    (h : readAttributeClause text = some rest) :
    (readAttributeKeyword text = none ∧ rest = text) ∨ Closes text rest := by
  unfold readAttributeClause at h
  split at h
  next behind hk =>
    obtain ⟨_, hm, h⟩ := Option.bind_eq_some_iff.mp h
    exact .inr ((readAttributeKeyword_passes hk).trans (readMark_passes hm rfl).reaches
      |>.reaches.closes (readAttributes_closes h))
  next hk => exact .inl ⟨hk, (Option.some.inj h).symm⟩

theorem readEnd_closes {text rest : Text} (h : readEnd text = some rest) :
    rest = text ∨ Closes text rest := by
  unfold readEnd at h
  dsimp only at h
  split at h
  next hs =>
    exact .inr ⟨text, .refl text, View.is_iff.mp hs ▸ rfl, (Option.some.inj h).symm⟩
  next =>
    split at h
    · exact .inl (Option.some.inj h).symm
    · simp at h

/-- A declaration ends with a string, a closing brace or a semicolon. -/
theorem readAfterImport_closes {typescript : Bool} {text source rest : Text}
    {clause : ImportClause}
    (h : readAfterImport typescript text = some (clause, source, rest)) : Closes text rest := by
  obtain ⟨⟨clause, _⟩, hc, h⟩ := Option.bind_eq_some_iff.mp h
  obtain ⟨⟨source, behind⟩, hs, h⟩ := Option.bind_eq_some_iff.mp h
  obtain ⟨last, ha, h⟩ := Option.bind_eq_some_iff.mp h
  obtain ⟨_, he, h⟩ := Option.bind_eq_some_iff.mp h
  simp only [pure, Option.some.injEq, Prod.mk.injEq] at h
  obtain ⟨-, -, rfl⟩ := h
  have hr := readClause_reaches hc
  have hclose : Closes text last := by
    rcases readAttributeClause_closes ha with ⟨-, rfl⟩ | ha
    · exact hr.closes (readString_closes hs)
    · exact (hr.trans (readString_passes hs).reaches).closes ha
  rcases readEnd_closes he with rfl | he
  · exact hclose
  · exact hclose.reaches.closes he

theorem readImport_closes {typescript : Bool} {text rest : Text}
    {declaration : ImportDeclaration}
    (h : readImport typescript text = some (declaration, rest)) : Closes text rest := by
  obtain ⟨_, hk, h⟩ := Option.bind_eq_some_iff.mp h
  obtain ⟨⟨clause, source, _⟩, ha, h⟩ := Option.bind_eq_some_iff.mp h
  obtain ⟨-, rfl⟩ := Prod.mk.inj (Option.some.inj h)
  exact (readKeyword_passes hk).reaches.closes (readAfterImport_closes ha)

end DirectImports
