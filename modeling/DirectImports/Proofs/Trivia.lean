import DirectImports.Source.Trivia

/-! Trivia in front of a text. The gap before a token does not depend on what stands behind it. -/

namespace DirectImports

theorem exists_append_of_length_le {p text gap code : Text} (h : p ++ text = gap ++ code)
    (hl : code.length ≤ text.length) : ∃ rest, gap = p ++ rest ∧ text = rest ++ code := by
  rcases List.append_eq_append_iff.mp h with ⟨rest, hg, ht⟩ | ⟨rest, hp, hc⟩
  · exact ⟨rest, hg, ht⟩
  · rw [hc, List.length_append] at hl
    have hn : rest = [] := List.length_eq_zero_iff.mp (by omega)
    exact ⟨[], by simp [hp, hn], by simp [hc, hn]⟩

/-- `rest` is left of a text after some of it has been read. -/
def IsBehind (rest text : Text) : Prop :=
  rest <:+ text ∧ rest.length < text.length

theorem isBehind_cons {c : Char} {rest text : Text} (h : rest <:+ text) :
    IsBehind rest (c :: text) :=
  ⟨h.trans (List.suffix_cons c text), Nat.lt_succ_of_le h.length_le⟩

theorem IsBehind.suffix {rest text whole : Text} (h : IsBehind rest text)
    (hs : text <:+ whole) : IsBehind rest whole :=
  ⟨h.1.trans hs, Nat.lt_of_lt_of_le h.2 hs.length_le⟩

theorem skipTriviaFrom_suffix (mode : TriviaMode) (broken : Bool) (text : Text) :
    (skipTriviaFrom mode broken text).2 <:+ text := by
  fun_induction skipTriviaFrom mode broken text with
  | case1 broken text ih | case2 broken text ih | case8 broken text ih =>
    exact ih.trans ((List.suffix_cons _ _).trans (List.suffix_cons _ _))
  | case3 broken c text _ _ _ ih | case4 broken c text _ _ _ _ ih | case6 broken c text _ ih
  | case7 broken c text _ ih | case9 broken c text _ ih =>
    exact ih.trans (List.suffix_cons _ _)
  | case5 | case10 => exact List.suffix_rfl

theorem skipTrivia_suffix (text : Text) : (skipTrivia text).2 <:+ text :=
  skipTriviaFrom_suffix .plain false text

/-- Whether no trivia stands in front of a text. -/
def IsTrimmed (text : Text) : Prop :=
  ∀ broken, skipTriviaFrom .plain broken text = (broken, text)

theorem skipTriviaFrom_trimmed (mode : TriviaMode) (broken : Bool) (text : Text) :
    IsTrimmed (skipTriviaFrom mode broken text).2 := by
  fun_induction skipTriviaFrom mode broken text with
  | case5 broken c text hslash hstar hline hgap =>
    intro b
    simp [skipTriviaFrom, hline, hgap]
  | case10 =>
    intro b
    simp [skipTriviaFrom]
  | _ => assumption

theorem skipTriviaFrom_plain_cons {c : Char} {text : Text} (broken : Bool) (hc : c ≠ '/') :
    skipTriviaFrom .plain broken (c :: text) =
      if isLineEnd c then skipTriviaFrom .plain true text
      else if isGap c then skipTriviaFrom .plain broken text else (broken, c :: text) := by
  rw [skipTriviaFrom]
  · rintro text rfl
    simp at hc
  · rintro text rfl
    simp at hc

theorem IsTrimmed.head {c : Char} {text : Text} (h : IsTrimmed (c :: text)) (hc : c ≠ '/') :
    isLineEnd c = false ∧ isGap c = false := by
  have hb := h false
  rw [skipTriviaFrom_plain_cons false hc] at hb
  split at hb
  · have hl := (skipTriviaFrom_suffix .plain true text).length_le
    rw [hb, List.length_cons] at hl
    omega
  · split at hb
    · have hl := (skipTriviaFrom_suffix .plain false text).length_le
      rw [hb, List.length_cons] at hl
      omega
    · exact ⟨eq_false_of_ne_true ‹_›, eq_false_of_ne_true ‹_›⟩

theorem isTrimmed_cons {c : Char} {text : Text} (hc : c ≠ '/') (hl : isLineEnd c = false)
    (hg : isGap c = false) : IsTrimmed (c :: text) := by
  intro broken
  simp [skipTriviaFrom_plain_cons broken hc, hl, hg]

theorem IsTrimmed.congr {c : Char} {text text' : Text} (h : IsTrimmed (c :: text))
    (hc : c ≠ '/') : IsTrimmed (c :: text') :=
  isTrimmed_cons hc (h.head hc).1 (h.head hc).2

theorem isTrimmed_slash {text : Text} :
    IsTrimmed ('/' :: text) ↔ text.head? ≠ some '/' ∧ text.head? ≠ some '*' := by
  cases text with
  | nil => exact ⟨fun _ => by simp, fun _ broken => by simp [skipTriviaFrom, isLineEnd, isGap]⟩
  | cons c text =>
    constructor
    · intro h
      have hb := h false
      refine ⟨?_, ?_⟩
      · rintro hc
        obtain rfl := Option.some.inj hc
        have hl := (skipTriviaFrom_suffix .line false text).length_le
        simp only [skipTriviaFrom] at hb
        rw [hb] at hl
        simp only [List.length_cons] at hl
        omega
      · rintro hc
        obtain rfl := Option.some.inj hc
        have hl := (skipTriviaFrom_suffix .block false text).length_le
        simp only [skipTriviaFrom] at hb
        rw [hb] at hl
        simp only [List.length_cons] at hl
        omega
    · rintro ⟨hs, hb⟩ broken
      have hs' : c ≠ '/' := fun hc => hs (by rw [hc]; rfl)
      have hb' : c ≠ '*' := fun hc => hb (by rw [hc]; rfl)
      rw [skipTriviaFrom]
      · simp [isLineEnd, isGap]
      · rintro t _ ht
        exact hs' (List.cons.inj ht).1
      · rintro t _ ht
        exact hb' (List.cons.inj ht).1

theorem skipTriviaFrom_block_cons {c : Char} {text : Text} (broken : Bool)
    (h : c = '*' → text.head? ≠ some '/') :
    skipTriviaFrom .block broken (c :: text) =
      skipTriviaFrom .block (broken || isLineEnd c) text := by
  rw [skipTriviaFrom]
  rintro text hc rfl
  simp [hc] at h

/-- A block comment takes up some of the text before any code behind it. -/
theorem skipTriviaFrom_block_ne {broken ended : Bool} {code : Text} (hc : code ≠ []) :
    skipTriviaFrom .block broken code ≠ (ended, code) := by
  obtain ⟨c, text, rfl⟩ := List.exists_cons_of_ne_nil hc
  intro h
  have hl : (skipTriviaFrom .block broken (c :: text)).2.length ≤ text.length := by
    by_cases hs : c = '*' ∧ text.head? = some '/'
    · obtain ⟨rfl, hs⟩ := hs
      obtain ⟨text, rfl⟩ := List.head?_eq_some_iff.mp hs
      have := (skipTriviaFrom_suffix .plain broken text).length_le
      simp only [skipTriviaFrom, List.length_cons]
      omega
    · rw [skipTriviaFrom_block_cons broken (by simpa using hs)]
      exact (skipTriviaFrom_suffix _ _ text).length_le
  rw [h, List.length_cons] at hl
  omega

/-- What is skipped in front of a text belongs to the gap. -/
theorem exists_gap {mode : TriviaMode} {broken ended : Bool} {p text gap code : Text}
    (ht : p ++ text = gap ++ code) (h : skipTriviaFrom mode broken text = (ended, code)) :
    ∃ rest, gap = p ++ rest ∧ text = rest ++ code := by
  have hl := (skipTriviaFrom_suffix mode broken text).length_le
  rw [h] at hl
  exact exists_append_of_length_le ht hl

/-- A gap is skipped in front of any code. -/
theorem skipTriviaFrom_append {mode : TriviaMode} {broken ended : Bool}
    {text gap code code' : Text} (ht : text = gap ++ code)
    (h : skipTriviaFrom mode broken text = (ended, code)) (hc : code ≠ [])
    (hc' : IsTrimmed code') : skipTriviaFrom mode broken (gap ++ code') = (ended, code') := by
  fun_induction skipTriviaFrom mode broken text generalizing gap with
  | case1 broken text ih =>
    obtain ⟨gap, rfl, rfl⟩ := exists_gap (p := ['/', '/']) ht h
    simpa [skipTriviaFrom] using ih rfl h
  | case2 broken text ih =>
    obtain ⟨gap, rfl, rfl⟩ := exists_gap (p := ['/', '*']) ht h
    simpa [skipTriviaFrom] using ih rfl h
  | case3 broken c text _ _ hline ih =>
    obtain ⟨gap, rfl, rfl⟩ := exists_gap (p := [c]) ht h
    have hslash : c ≠ '/' := by
      rintro rfl
      simp [isLineEnd] at hline
    simpa [skipTriviaFrom_plain_cons _ hslash, hline] using ih rfl h
  | case4 broken c text _ _ hline hgap ih =>
    obtain ⟨gap, rfl, rfl⟩ := exists_gap (p := [c]) ht h
    have hslash : c ≠ '/' := by
      rintro rfl
      simp [isGap] at hgap
    simpa [skipTriviaFrom_plain_cons _ hslash, hline, hgap] using ih rfl h
  | case5 broken c text =>
    obtain ⟨rfl, rfl⟩ := Prod.mk.injEq .. ▸ h
    have hg : gap = [] := by simpa using ht
    simpa [hg] using hc' broken
  | case6 broken c text hline ih =>
    obtain ⟨gap, rfl, rfl⟩ := exists_gap (p := [c]) ht h
    simpa [skipTriviaFrom, hline] using ih rfl h
  | case7 broken c text hline ih =>
    obtain ⟨gap, rfl, rfl⟩ := exists_gap (p := [c]) ht h
    simpa [skipTriviaFrom, hline] using ih rfl h
  | case8 broken text ih =>
    obtain ⟨gap, rfl, rfl⟩ := exists_gap (p := ['*', '/']) ht h
    simpa [skipTriviaFrom] using ih rfl h
  | case9 broken c text hstar ih =>
    obtain ⟨gap, rfl, rfl⟩ := exists_gap (p := [c]) ht h
    -- The comment is not closed here, whatever the code: its next character is in the gap.
    have hne : gap ≠ [] := by
      rintro rfl
      exact skipTriviaFrom_block_ne hc h
    obtain ⟨d, gap, rfl⟩ := List.exists_cons_of_ne_nil hne
    have hclose : c = '*' → (d :: gap ++ code').head? ≠ some '/' := by
      rintro rfl hd
      obtain rfl : d = '/' := by simpa using hd
      exact hstar _ rfl rfl
    exact (skipTriviaFrom_block_cons broken hclose).trans (ih rfl h)
  | case10 mode broken =>
    simp at ht
    simp [ht.2] at hc

theorem skipTrivia_trimmed (text : Text) : IsTrimmed (skipTrivia text).2 :=
  skipTriviaFrom_trimmed .plain false text

theorem isTrimmed_of_skipTrivia {text code : Text} (h : (skipTrivia text).2 = code) :
    IsTrimmed code :=
  h ▸ skipTrivia_trimmed text

theorem IsTrimmed.skipTrivia {text : Text} (h : IsTrimmed text) :
    skipTrivia text = (false, text) :=
  h false

theorem skipTrivia_append {gap code code' : Text} {broken : Bool}
    (h : skipTrivia (gap ++ code) = (broken, code)) (hc : code ≠ []) (hc' : IsTrimmed code') :
    skipTrivia (gap ++ code') = (broken, code') :=
  skipTriviaFrom_append rfl h hc hc'

theorem IsTrimmed.append {text : Text} (h : IsTrimmed text) (hn : text ≠ []) (hs : text ≠ ['/'])
    (more : Text) : IsTrimmed (text ++ more) := by
  obtain ⟨c, text, rfl⟩ := List.exists_cons_of_ne_nil hn
  by_cases hc : c = '/'
  · subst hc
    cases text with
    | nil => exact absurd rfl hs
    | cons d text =>
      rw [List.cons_append, isTrimmed_slash] at *
      simpa using h
  · exact h.congr hc

end DirectImports
