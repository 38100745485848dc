import DirectImports.Proofs.Written

/-! A text and its fixed form agree up to the first import that is replaced. From there on the fixed
text goes on with an import as well. -/

namespace DirectImports

/-- Two texts that are the same, or the same up to a place where the second goes on with `im`. -/
def Agree (text fixed : Text) : Prop :=
  text = fixed ∨
    ∃ p q later, text = p ++ q ∧ fixed = p ++ 'i' :: 'm' :: later ∧ q ≠ [] ∧ IsTrimmed q

theorem Agree.append {text fixed : Text} (h : Agree text fixed) (a : Text) :
    Agree (a ++ text) (a ++ fixed) := by
  rcases h with rfl | ⟨p, q, later, rfl, rfl, hq, ht⟩
  · exact .inl rfl
  · exact .inr ⟨a ++ p, q, later, (List.append_assoc ..).symm, (List.append_assoc ..).symm, hq, ht⟩

/-- A word that reaches a following `im` holds that `m`. -/
theorem readWordFrom_runs_on (isFirst : Bool) (mode : WordMode) (a later : Text) :
    (∃ t, t ≠ [] ∧ (readWordFrom isFirst mode (a ++ 'i' :: 'm' :: later)).2 =
      t ++ 'i' :: 'm' :: later) ∨
    'm' ∈ (readWordFrom isFirst mode (a ++ 'i' :: 'm' :: later)).1.text := by
  induction a generalizing isFirst mode with
  | nil =>
    have hi : ∃ added, wordStep isFirst mode 'i' = .more added .plain := by
      have hp : plainWordStep 'i' = .more (some 'i') .plain := rfl
      have hh : hexValue? 'i' = none := by decide
      cases mode with
      | plain => exact ⟨_, hp⟩
      | backslash => exact ⟨none, rfl⟩
      | code => exact ⟨some 'i', by simp [wordStep, hh, hp]⟩
      | digits left value => exact ⟨some 'i', by simp [wordStep, hh, hp]⟩
      | braced value => exact ⟨some 'i', by cases value <;> simp [wordStep, hh, hp]⟩
    obtain ⟨added, hi⟩ := hi
    have hm (first : Bool) : wordStep first .plain 'm' = .more (some 'm') .plain := rfl
    right
    simp [readWordFrom, hi, hm, prependChar]
  | cons c a ih =>
    cases hs : wordStep isFirst mode c with
    | stop => exact .inl ⟨c :: a, by simp, by simp [readWordFrom, hs]⟩
    | more added next =>
      rcases ih (isFirst && next != .plain) next with ⟨t, ht, hr⟩ | hm
      · exact .inl ⟨t, ht, by simpa [readWordFrom, hs, prependChar] using hr⟩
      · exact .inr (by simp [readWordFrom, hs, prependChar, hm])

theorem Agree.isTrimmed {text fixed : Text} (h : Agree text fixed) (ht : IsTrimmed text) :
    IsTrimmed fixed := by
  rcases h with rfl | ⟨p, q, later, rfl, rfl, -, -⟩
  · exact ht
  · cases p with
    | nil => exact isTrimmed_cons (by decide) rfl rfl
    | cons c p =>
      by_cases hc : c = '/'
      · subst hc
        rw [List.cons_append, isTrimmed_slash] at ht ⊢
        cases p with
        | nil => simp
        | cons d p => simpa using ht
      · exact ht.congr hc

theorem readImport_ne_nil {typescript : Bool} {text behind : Text}
    {declaration : ImportDeclaration}
    (h : readImport typescript (text ++ behind) = some (declaration, behind)) : text ≠ [] := by
  rintro rfl
  exact Nat.lt_irrefl _ (readImport_closes h).length_lt

theorem Reads.agree {options : RuleOptions} {language : Language} {text fixed : Text}
    {pieces : List Piece} (h : Reads language text pieces)
    (hf : fixedText? options pieces = some fixed) : Agree text fixed := by
  induction h generalizing fixed with
  | finish => exact .inl (fixedText?_last hf).symm
  | @declaration gap text behind declaration pieces hg hb later ih =>
    obtain ⟨fixed, hl, ⟨-, rfl⟩ | ⟨pattern, texts, hp, ht, rfl⟩⟩ := fixedText?_declaration hf
    · exact ((ih hl).append text).append gap
    · -- The first place where the texts may differ, and both go on with code there.
      obtain ⟨rest, hj⟩ := joined_begins (barrelOf?_eq_some hp).2 ht
      have htrim := isTrimmed_of_skipTrivia hg
      refine .inr ⟨gap, text ++ behind, _, rfl, by rw [hj]; rfl, ?_, htrim⟩
      simp [readImport_ne_nil hb]
  | statement hg hb later ih =>
    obtain ⟨fixed, hl, rfl⟩ := fixedText?_statement hf
    exact ((ih hl).append _).append _

theorem View.isOneOf_pair {view : View} {a b : Mark} :
    view.isOneOf [a, b] = (view.is a || view.is b) := by
  unfold View.isOneOf View.is
  cases view.token <;> simp

/-- The code behind a gap begins with the token that it begins with on its own. -/
theorem nextToken_gap {text code : Text} {broken : Bool} (h : skipTrivia text = (broken, code)) :
    (nextToken text).broken = broken ∧ (nextToken text).token = (nextToken code).token := by
  have ht := isTrimmed_of_skipTrivia (congrArg Prod.snd h)
  rw [nextToken_eq h (Prod.eta (readToken code)).symm,
    nextToken_eq ht.skipTrivia (Prod.eta (readToken code)).symm]
  exact ⟨rfl, rfl⟩

theorem View.isWord_congr {view view' : View} (h : view.token = view'.token)
    (keyword : String) : view.isWord keyword = view'.isWord keyword := by
  simp only [View.isWord, h]

theorem View.is_congr {view view' : View} (h : view.token = view'.token)
    (mark : Mark) : view.is mark = view'.is mark := by
  simp only [View.is, h]

theorem readEnd_here {text : Text} :
    readEnd text = some text ↔ (nextToken text).is .semicolon = false ∧
      ((nextToken text).broken = true ∨ (nextToken text).token = .finish ∨
        (nextToken text).is .closeBrace = true) := by
  cases hs : (nextToken text).is .semicolon with
  | true =>
    have hi : (nextToken text).token.inImport = true := by
      rw [View.is_iff.mp hs]
      rfl
    have hne : (nextToken text).rest ≠ text := by
      intro hr
      have hl := (nextToken_isBehind hi).2
      rw [hr] at hl
      exact Nat.lt_irrefl _ hl
    simp [readEnd, hs, hne]
  | false =>
    have hends : (nextToken text).endsStatement = true ↔ ((nextToken text).broken = true ∨
        (nextToken text).token = .finish ∨ (nextToken text).is .closeBrace = true) := by
      simp [View.endsStatement, View.isOneOf_pair, hs, or_assoc]
    rw [← hends]
    simp [readEnd, hs]

/-- What may stand behind a declaration depends on the first token of the code there. -/
theorem endsAlike_of_code {gap code code' : Text} (hg : (skipTrivia (gap ++ code)).2 = code)
    (hc : (nextToken code).token ≠ .finish) (hc' : IsTrimmed code')
    (hw : ∀ keyword ∈ ["with", "assert"], (nextToken code').isWord keyword = true →
      (nextToken code).isWord keyword = true)
    (hm : ∀ mark ∈ [Mark.semicolon, .closeBrace],
      (nextToken code').is mark = (nextToken code).is mark) :
    EndsAlike (gap ++ code) (gap ++ code') := by
  have hne : code ≠ [] := by
    rintro rfl
    exact hc rfl
  have hskip : skipTrivia (gap ++ code) = (_, code) := Prod.ext rfl hg
  obtain ⟨hb, ht⟩ := nextToken_gap hskip
  obtain ⟨hb', ht'⟩ := nextToken_gap (skipTrivia_append hskip hne hc')
  constructor
  · intro h
    simp only [readAttributeKeyword, ite_eq_right_iff, reduceCtorEq, imp_false, Bool.or_eq_true,
      Bool.and_eq_true, not_or, not_and, hb, hb', View.isWord_congr ht,
      View.isWord_congr ht'] at h ⊢
    exact ⟨fun hk => h.1 (hw "with" (by simp) hk), fun hk => h.2 (hw "assert" (by simp) hk)⟩
  · intro h
    rw [readEnd_here] at h ⊢
    rw [hb, ht, View.is_congr ht, View.is_congr ht] at h
    rw [hb', View.is_congr ht', View.is_congr ht', hm .semicolon (by simp),
      hm .closeBrace (by simp)]
    exact h.imp_right fun h => h.imp_right fun h => .inr (h.resolve_left hc)

/-- A word without an `m` is the same in texts that agree. -/
theorem Agree.readWord_eq {code code' : Text} (h : Agree code code')
    (hm : 'm' ∉ (readWord code').1.text) : (readWord code).1 = (readWord code').1 := by
  rcases h with rfl | ⟨p, q, later, rfl, rfl, -, -⟩
  · rfl
  · rcases readWordFrom_runs_on true .plain p later with ⟨t, ht, hr⟩ | hm'
    · have hw : readWord (p ++ 'i' :: 'm' :: later) = (_, t ++ 'i' :: 'm' :: later) :=
        Prod.ext rfl hr
      have hq : readWord (p ++ q) = (_, t ++ q) := readWordFrom_append hw ht q
      rw [hq]
    · exact absurd hm' hm

theorem readToken_word_inv {c : Char} {text : Text} {word : Word}
    (h : (readToken (c :: text)).1 = .word word) :
    beginsWord? c = true ∧ (readWord (c :: text)).1 = word := by
  have hr : readToken (c :: text) = (.word word, (readToken (c :: text)).2) := Prod.ext h rfl
  rcases readToken_inImport hr rfl with ⟨_, hw, hc, hr⟩ | ⟨_, hw, -⟩ | ⟨_, hw, -⟩
  · obtain rfl := Token.word.inj hw
    exact ⟨hc, congrArg Prod.fst hr⟩
  · cases hw
  · cases hw

/-- A semicolon or closing brace is told by its character. -/
theorem readToken_mark_congr {c : Char} {text : Text} {mark : Mark}
    (hm : mark ∈ [Mark.semicolon, .closeBrace]) (h : (readToken (c :: text)).1 = .mark mark)
    (text' : Text) : (readToken (c :: text')).1 = .mark mark := by
  have hi : mark.inImport = true ∧ mark ≠ .star := by
    simp only [List.mem_cons, List.not_mem_nil, or_false] at hm
    rcases hm with rfl | rfl <;> decide
  have hr : readToken (c :: text) = (.mark mark, (readToken (c :: text)).2) := Prod.ext h rfl
  rcases readToken_inImport hr hi.1 with ⟨_, hw, -⟩ | ⟨_, hw, -⟩ | ⟨_, hw, hr⟩
  · cases hw
  · cases hw
  · obtain rfl := Token.mark.inj hw
    obtain ⟨-, hs | ⟨-, hstar, -⟩⟩ := readMark?_inImport hr hi.1
    · have hr' : readMark? c text' = some (mark, text') := by simp [readMark?, hs]
      rw [readToken_mark hi.1 hr']
    · exact absurd hstar hi.2

theorem endsAlike_import {gap code code' : Text} (hg : (skipTrivia (gap ++ code)).2 = code)
    (hc' : IsTrimmed code') (h : (nextToken code).isWord "import" = true)
    (h' : (nextToken code').isWord "import" = true) :
    EndsAlike (gap ++ code) (gap ++ code') := by
  obtain ⟨word, hw, -⟩ := View.isWord_iff.mp h
  obtain ⟨word', hw', himport⟩ := View.isWord_iff.mp h'
  refine endsAlike_of_code hg (by simp [hw]) hc' ?_ ?_
  · intro keyword hk hkeyword
    obtain ⟨_, hother, htext⟩ := View.isWord_iff.mp hkeyword
    obtain rfl := Token.word.inj (hw'.symm.trans hother)
    rw [himport] at htext
    simp only [List.mem_cons, List.not_mem_nil, or_false] at hk
    rcases hk with rfl | rfl
    · exact absurd htext (by decide)
    · exact absurd htext (by decide)
  · intro mark _
    simp [View.is, hw, hw']

/-- Code that begins with the same character may end a declaration alike. -/
theorem endsAlike_cons {gap text text' : Text} {c : Char}
    (hg : (skipTrivia (gap ++ c :: text)).2 = c :: text)
    (hc : (nextToken (c :: text)).token ≠ .finish) (h : Agree (c :: text) (c :: text')) :
    EndsAlike (gap ++ c :: text) (gap ++ c :: text') := by
  have ht := isTrimmed_of_skipTrivia hg
  have ht' := h.isTrimmed ht
  have hnext := nextToken_eq ht.skipTrivia (Prod.eta (readToken (c :: text))).symm
  have hnext' := nextToken_eq ht'.skipTrivia (Prod.eta (readToken (c :: text'))).symm
  refine endsAlike_of_code hg hc ht' ?_ ?_
  · intro keyword hk hkeyword
    obtain ⟨word, hw, htext⟩ := View.isWord_iff.mp hkeyword
    rw [hnext'] at hw
    obtain ⟨hbegins, rfl⟩ := readToken_word_inv hw
    have hm : 'm' ∉ (readWord (c :: text')).1.text := by
      simp only [List.mem_cons, List.not_mem_nil, or_false] at hk
      rcases hk with rfl | rfl <;> simp [htext]
    rw [← h.readWord_eq hm] at htext
    rw [hnext, readToken_word _ hbegins]
    exact View.isWord_iff.mpr ⟨_, rfl, htext⟩
  · intro mark hm
    rw [Bool.eq_iff_iff, View.is_iff, View.is_iff, hnext, hnext']
    exact ⟨fun h => readToken_mark_congr hm h text, fun h => readToken_mark_congr hm h text'⟩

theorem isTrimmed_import (later : Text) : IsTrimmed ("import".toList ++ ' ' :: later) :=
  isTrimmed_cons (by decide) rfl rfl

theorem nextToken_import (later : Text) :
    (nextToken ("import".toList ++ ' ' :: later)).isWord "import" = true := by
  rw [nextToken_eq (isTrimmed_import later).skipTrivia (readToken_word _ (by decide))]
  rfl

theorem beginning?_not_finish {language : Language} {text : Text} {length : Nat}
    (h : beginning? language text = some (.statement length)) :
    (nextToken text).token ≠ .finish := by
  intro hf
  simp [beginning?, View.isEnd, hf] at h

/-- What stands behind a declaration ends it in the fixed text as well. -/
theorem Reads.endsAlike {options : RuleOptions} {language : Language} {text fixed : Text}
    {pieces : List Piece} (h : Reads language text pieces)
    (hf : fixedText? options pieces = some fixed) : EndsAlike text fixed := by
  cases h with
  | finish =>
    obtain rfl := fixedText?_last hf
    exact ⟨id, id⟩
  | @declaration gap text behind declaration pieces hg hb later =>
    obtain ⟨_, _, _, hk, -⟩ := readImport_eq hb
    have hword := View.isWord_iff.mpr (readKeyword_eq hk).1
    obtain ⟨fixed, hl, ⟨-, rfl⟩ | ⟨pattern, texts, hp, ht, rfl⟩⟩ := fixedText?_declaration hf
    · obtain ⟨ht, -⟩ := ((readImport_closes hb).alike fixed).inside (readImport_closes hb).length_lt
      have htrim := isTrimmed_of_skipTrivia hg
      refine endsAlike_import hg (((later.agree hl).append text).isTrimmed htrim) hword ?_
      rw [View.isWord_congr ht, hword]
    · obtain ⟨rest, hj⟩ := joined_begins (barrelOf?_eq_some hp).2 ht
      rw [hj, List.append_assoc, List.cons_append]
      exact endsAlike_import hg (isTrimmed_import _) hword (nextToken_import _)
  | @statement gap text behind pieces hg hb later =>
    obtain ⟨fixed, hl, rfl⟩ := fixedText?_statement hf
    have hagree := (later.agree hl).append text
    obtain ⟨c, text, rfl⟩ : ∃ c rest, text = c :: rest :=
      List.exists_cons_of_ne_nil (List.ne_nil_of_length_pos (beginning?_statement hb).1)
    exact endsAlike_cons hg (beginning?_not_finish hb) hagree

end DirectImports
