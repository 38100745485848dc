import DirectImports.Proofs.WordsAndLines

/-! A text on one line. It is made of the words of the text with one space between each and the
next, so that white space is all that is lost. -/

namespace DirectImports

theorem words_blank {c : Char} (hc : isBlank c = true) (text : Text) :
    words (c :: text) = words text := by
  rw [words.eq_def]
  simp [hc]

theorem words_word {word text : Text} (hne : word ≠ []) (hword : ∀ c ∈ word, isBlank c = false)
    (hnext : ∀ c ∈ text.head?, isBlank c = true) : words (word ++ text) = word :: words text := by
  induction word with
  | nil => exact absurd rfl hne
  | cons c word ih =>
    obtain ⟨hc, hword⟩ := List.forall_mem_cons.mp hword
    cases word with
    | cons d word =>
      have hd : ¬isBlank d = true := by simp [hword d (.head _)]
      have hlater : words (d :: (word ++ text)) = (d :: word) :: words text :=
        ih (List.cons_ne_nil d word) hword
      show words (c :: d :: (word ++ text)) = _
      rw [words.eq_def]
      simp [hc, hd, hlater, attach]
    | nil =>
      show words (c :: text) = _
      rw [words.eq_def]
      cases text with
      | nil => simp [hc, words]
      | cons d text => simp [hc, hnext d rfl]

theorem HasWords.words_eq {text : Text} {found : List Text} (h : HasWords text found) :
    words text = found := by
  induction h with
  | nil => rfl
  | blank hc h ih => rw [words_blank hc, ih]
  | word hne hword hnext h ih => rw [words_word hne hword hnext, ih]

/-- What is left of a text without its white space. -/
def withoutBlanks (text : Text) : Text :=
  text.filter fun c => !isBlank c

section

variable {text behind : Text} {found later : List Text}

theorem withoutBlanks_append (text behind : Text) :
    withoutBlanks (text ++ behind) = withoutBlanks text ++ withoutBlanks behind :=
  List.filter_append _ _

theorem withoutBlanks_word {word : Text} (h : ∀ c ∈ word, isBlank c = false) :
    withoutBlanks word = word :=
  List.filter_eq_self.mpr fun c hc => by simp [h c hc]

theorem HasWords.areFreeOf (h : HasWords text found) : AreFreeOf isBlank found := by
  induction h with
  | nil => nofun
  | blank _ _ ih => exact ih
  | word hne hword _ _ ih => exact List.forall_mem_cons.mpr ⟨⟨hne, hword⟩, ih⟩

theorem HasWords.withoutBlanks_eq (h : HasWords text found) :
    withoutBlanks text = found.flatten := by
  induction h with
  | nil => rfl
  | blank hc _ ih => simpa [withoutBlanks, hc] using ih
  | word _ hword _ _ ih =>
    rw [withoutBlanks_append, withoutBlanks_word hword, ih, List.flatten_cons]

theorem HasWords.blanks {gap : Text} (hgap : ∀ c ∈ gap, isBlank c = true)
    (h : HasWords text found) : HasWords (gap ++ text) found := by
  induction gap with
  | nil => exact h
  | cons c gap ih =>
    obtain ⟨hc, hgap⟩ := List.forall_mem_cons.mp hgap
    exact .blank hc (ih hgap)

/-- White space ends a word. -/
theorem HasWords.append {gap : Text} (h : HasWords text found) (hne : gap ≠ [])
    (hgap : ∀ c ∈ gap, isBlank c = true) (h' : HasWords behind later) :
    HasWords (text ++ (gap ++ behind)) (found ++ later) := by
  induction h with
  | nil =>
    rw [List.nil_append, List.nil_append]
    exact h'.blanks hgap
  | blank hc _ ih => exact .blank hc ih
  | @word word text _ hword hfree hnext _ ih =>
    have hnext' : ∀ c ∈ (text ++ (gap ++ behind)).head?, isBlank c = true := by
      cases text with
      | nil =>
        obtain ⟨c, gap, rfl⟩ := List.exists_cons_of_ne_nil hne
        exact fun d hd => Option.some.inj hd ▸ hgap c (.head _)
      | cons c text => exact hnext
    rw [List.append_assoc]
    exact .word hword hfree hnext' ih

theorem hasWords_joinWith (h : AreFreeOf isBlank found) :
    HasWords (joinWith [' '] found) found := by
  induction found with
  | nil => exact .nil
  | cons word found ih =>
    obtain ⟨⟨hne, hword⟩, h⟩ := List.forall_mem_cons.mp h
    have hnone : ∀ c ∈ ([] : Text).head?, isBlank c = true := nofun
    have hfirst := HasWords.word hne hword hnone .nil
    rw [List.append_nil] at hfirst
    cases found with
    | nil => simpa [joinWith] using hfirst
    | cons next found =>
      rw [joinWith_cons_cons]
      have hspace : ∀ c ∈ [' '], isBlank c = true := List.forall_mem_singleton.mpr rfl
      exact hfirst.append (List.cons_ne_nil ' ' []) hspace (ih h)

end

/-- Where a text is separated: white space and then another character stand behind the character
that has `n` others before it, white space not counted. -/
def IsSeparatedAt (n : Nat) (text : Text) : Prop :=
  ∃ before c gap d after, text = before ++ c :: (gap ++ d :: after) ∧
    (withoutBlanks before).length = n ∧ isBlank c = false ∧ isBlank d = false ∧
    gap ≠ [] ∧ ∀ e ∈ gap, isBlank e = true

/-- A text with a word begins with it behind some white space. -/
theorem HasWords.exists_first {word text : Text} {later : List Text}
    (h : HasWords text (word :: later)) : ∃ gap c after, text = gap ++ c :: after ∧
      isBlank c = false ∧ ∀ d ∈ gap, isBlank d = true := by
  generalize hwords : word :: later = found at h
  induction h with
  | nil => cases hwords
  | @blank c text _ hc _ ih =>
    obtain ⟨gap, d, after, rfl, hd, hgap⟩ := ih hwords
    exact ⟨c :: gap, d, after, rfl, hd, List.forall_mem_cons.mpr ⟨hc, hgap⟩⟩
  | @word word text _ hne hword _ _ _ =>
    obtain ⟨c, word, rfl⟩ := List.exists_cons_of_ne_nil hne
    exact ⟨[], c, word ++ text, rfl, hword c (.head _), nofun⟩

theorem HasWords.isSeparatedAt {text : Text} {first last : List Text} {n : Nat}
    (h : HasWords text (first ++ last)) (hfirst : first.flatten.length = n + 1)
    (hlast : last ≠ []) : IsSeparatedAt n text := by
  generalize hwords : first ++ last = found at h
  induction h generalizing first n with
  | nil => exact absurd (List.append_eq_nil_iff.mp hwords).2 hlast
  | @blank c text _ hc _ ih =>
    obtain ⟨before, d, gap, e, after, rfl, hn, hrest⟩ := ih hfirst hwords
    refine ⟨c :: before, d, gap, e, after, rfl, ?_, hrest⟩
    simpa [withoutBlanks, hc] using hn
  | word hne hword hnext hlater ih =>
    cases first with
    | nil => cases hfirst
    | cons word first =>
      obtain ⟨rfl, rfl⟩ := List.cons.inj hwords
      rw [List.flatten_cons, List.length_append] at hfirst
      cases first with
      | nil =>
        -- The word is the last of the first ones, and white space parts it from the next.
        obtain ⟨next, last, rfl⟩ := List.exists_cons_of_ne_nil hlast
        obtain ⟨gap, d, after, rfl, hd, hgap⟩ := hlater.exists_first
        obtain ⟨before, c, rfl⟩ := (List.eq_nil_or_concat word).resolve_left hne
        rw [List.concat_eq_append] at hword hfirst ⊢
        obtain ⟨hbefore, hc⟩ := List.forall_mem_append.mp hword
        refine ⟨before, c, gap, d, after, List.append_assoc _ _ _, ?_, hc c (.head _), hd, ?_, hgap⟩
        · rw [withoutBlanks_word hbefore]
          simpa using hfirst
        · rintro rfl
          rw [hnext d rfl] at hd
          cases hd
      | cons second first =>
        obtain ⟨m, hm⟩ : ∃ m, (second :: first).flatten.length = m + 1 := by
          refine Nat.exists_eq_add_one_of_ne_zero fun hzero => ?_
          have hsecond := (hlater.areFreeOf second (.head _)).1
          simp [hsecond] at hzero
        obtain ⟨before, c, gap, d, after, rfl, hbefore, hrest⟩ := ih hm rfl
        refine ⟨word ++ before, c, gap, d, after, (List.append_assoc _ _ _).symm, ?_, hrest⟩
        rw [withoutBlanks_append, withoutBlanks_word hword, List.length_append]
        omega

theorem HasWords.isSeparatedAt_iff {text : Text} {found : List Text} {n : Nat}
    (h : HasWords text found) : IsSeparatedAt n text ↔
      ∃ first last, found = first ++ last ∧ first.flatten.length = n + 1 ∧ last ≠ [] := by
  constructor
  · rintro ⟨before, c, gap, d, after, rfl, hn, hc, hd, hne, hgap⟩
    have hfirst := hasWords_words (before ++ [c])
    have hlast := hasWords_words (d :: after)
    have hwords := hfirst.append hne hgap hlast
    rw [List.append_assoc, List.singleton_append] at hwords
    refine ⟨_, _, h.words_eq.symm.trans hwords.words_eq, ?_, ?_⟩
    · rw [← hfirst.withoutBlanks_eq, withoutBlanks_append, List.length_append, hn]
      simp [withoutBlanks, hc]
    · intro hnone
      have hempty := hlast.withoutBlanks_eq
      rw [hnone] at hempty
      simp [withoutBlanks, hd] at hempty
  · rintro ⟨first, last, rfl, hfirst, hlast⟩
    exact h.isSeparatedAt hfirst hlast

/-- A text that is collapsed differs from the other one in white space only: it has single spaces,
and it has them where the other one has white space between two characters. -/
structure Collapses (text collapsed : Text) : Prop where
  kept : withoutBlanks collapsed = withoutBlanks text
  spaces : ∀ c ∈ collapsed, isBlank c = true → c = ' '
  apart : SeparatorsStandApart isBlank collapsed
  separated : ∀ n, IsSeparatedAt n collapsed ↔ IsSeparatedAt n text

theorem hasWords_oneLine (text : Text) : HasWords (oneLine text) (words text) :=
  hasWords_joinWith (hasWords_words text).areFreeOf

theorem oneLine_oneLine (text : Text) : oneLine (oneLine text) = oneLine text := by
  rw [oneLine, (hasWords_oneLine text).words_eq]
  rfl

theorem mem_joinWith {separator : Text} {c : Char} {parts : List Text}
    (h : c ∈ joinWith separator parts) : c ∈ separator ∨ ∃ part ∈ parts, c ∈ part := by
  by_contra hnone
  rw [not_or, not_exists] at hnone
  exact notMem_joinWith hnone.1 (fun part hp hc => hnone.2 part ⟨hp, hc⟩) h

theorem oneLine_collapses (text : Text) : Collapses text (oneLine text) := by
  have h := hasWords_words text
  have h' := hasWords_oneLine text
  constructor
  case kept => rw [h.withoutBlanks_eq, h'.withoutBlanks_eq]
  case spaces =>
    intro c hc hblank
    rcases mem_joinWith hc with hspace | ⟨word, hword, hc⟩
    · exact List.mem_singleton.mp hspace
    · rw [(h.areFreeOf word hword).2 c hc] at hblank
      cases hblank
  case apart => exact joinWith_standApart ' ' h.areFreeOf
  case separated => exact fun n => h'.isSeparatedAt_iff.trans h.isSeparatedAt_iff.symm

end DirectImports
