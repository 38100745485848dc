import DirectImports.Proofs.Selection

/-! When fixes cannot be applied. It takes a kept fix whose span does not fit the text as it was
before any fix. What is skipped does not matter, nor what is put in. -/

namespace DirectImports

theorem selectFrom_chain (last : Nat) (fixes : List Fix) :
    (∀ fix ∈ (selectFrom last fixes).kept.head?, last ≤ fix.span.start) ∧
      (selectFrom last fixes).kept.IsChain fun a b => a.span.stop ≤ b.span.start := by
  induction fixes generalizing last with
  | nil => exact ⟨nofun, .nil⟩
  | cons fix fixes ih =>
    by_cases hs : fix.span.start < last
    · rw [selectFrom, if_pos hs]
      exact ih last
    · rw [selectFrom, if_neg hs]
      obtain ⟨hhead, hchain⟩ := ih fix.span.stop
      refine ⟨fun first hf => ?_, List.isChain_cons.mpr ⟨hhead, hchain⟩⟩
      obtain rfl := Option.some.inj hf
      exact Nat.le_of_not_lt hs

theorem selectFrom_sublist (last : Nat) (fixes : List Fix) :
    (selectFrom last fixes).kept.Sublist fixes := by
  induction fixes generalizing last with
  | nil => exact .slnil
  | cons fix fixes ih =>
    by_cases hs : fix.span.start < last
    · rw [selectFrom, if_pos hs]
      exact (ih last).cons _
    · rw [selectFrom, if_neg hs]
      exact (ih fix.span.stop).cons_cons _

theorem selectFrom_kept (last : Nat) (fixes : List Fix) :
    selectFrom last (selectFrom last fixes).kept = ⟨(selectFrom last fixes).kept, []⟩ := by
  induction fixes generalizing last with
  | nil => rfl
  | cons fix fixes ih =>
    by_cases hs : fix.span.start < last
    · rw [selectFrom, if_pos hs]
      exact ih last
    · have hlater := ih fix.span.stop
      rw [selectFrom, if_neg hs]
      simp only [selectFrom, if_neg hs, hlater]

/-- What is kept is kept again. -/
theorem select_kept (fixes : List Fix) : select (select fixes).kept = ⟨(select fixes).kept, []⟩ := by
  have hkept : sortFixes (select fixes).kept = (select fixes).kept :=
    List.mergeSort_of_pairwise ((sortFixes_ordered fixes).sublist (selectFrom_sublist 0 _))
  rw [select, hkept]
  exact selectFrom_kept 0 _

theorem selectFrom_spans {a b : List Fix} (h : a.map Fix.span = b.map Fix.span) (last : Nat) :
    (selectFrom last a).kept.map Fix.span = (selectFrom last b).kept.map Fix.span := by
  induction a generalizing b last with
  | nil =>
    obtain rfl : b = [] := List.map_eq_nil_iff.mp h.symm
    rfl
  | cons fix a ih =>
    obtain ⟨other, b, rfl, hspan, hlater⟩ := List.map_eq_cons_iff.mp h.symm
    by_cases hs : fix.span.start < last
    · have hs' : other.span.start < last := by rwa [hspan]
      rw [selectFrom, if_pos hs, selectFrom, if_pos hs']
      exact ih hlater.symm last
    · have hs' : ¬other.span.start < last := by rwa [hspan]
      rw [selectFrom, if_neg hs, selectFrom, if_neg hs', List.map_cons, List.map_cons, hspan,
        ih hlater.symm fix.span.stop]

/-- The spans that are kept depend on the spans alone. -/
theorem select_spans {a b : List Fix} (h : a.map Fix.span = b.map Fix.span) :
    (select a).kept.map Fix.span = (select b).kept.map Fix.span := by
  have hsorted (fixes : List Fix) :
      (sortFixes fixes).map Fix.span = (fixes.map Fix.span).mergeSort Span.precedes :=
    List.map_mergeSort fun _ _ _ _ => rfl
  refine selectFrom_spans ?_ 0
  rw [hsorted, hsorted, h]

/-- Where the text is edited behind a fix, the span of the fix fits it as it fitted before. -/
theorem fits_applied {source : Text} {fix : Fix} {later : List Fix}
    (hc : (fix :: later).IsChain fun a b => a.span.stop ≤ b.span.start)
    (hf : ∀ other ∈ later, other.span.Fits source) :
    ∃ edited, applyInReverse source later = some edited ∧
      (fix.span.Fits edited ↔ fix.span.Fits source) := by
  obtain ⟨hnext, hc⟩ := List.isChain_cons.mp hc
  cases later with
  | nil => exact ⟨source, rfl, Iff.rfl⟩
  | cons next later =>
    obtain ⟨front, inside, after, rfl, hspan⟩ := Span.fits_iff.mp (hf next (.head _))
    have hstart : next.span.start = byteLength front := by rw [hspan]
    have hstop : fix.span.stop ≤ byteLength front := by
      rw [← hstart]
      exact hnext next rfl
    have hhead : ∀ first ∈ (next :: later).head?, byteLength front ≤ first.span.start := by
      intro first hfirst
      obtain rfl := Option.some.inj hfirst
      exact hstart.ge
    obtain ⟨fixed, hspliced⟩ := exists_spliced rfl hc hhead hf
    exact ⟨front ++ fixed, hspliced.applied rfl,
      (Span.fits_append hstop).trans (Span.fits_append hstop).symm⟩

theorem applyInReverse_eq_none_iff {source : Text} {fixes : List Fix}
    (hc : fixes.IsChain fun a b => a.span.stop ≤ b.span.start) :
    applyInReverse source fixes = none ↔ ∃ fix ∈ fixes, ¬fix.span.Fits source := by
  induction fixes with
  | nil => simp [applyInReverse]
  | cons fix later ih =>
    have hlater := ih (List.isChain_cons.mp hc).2
    by_cases hf : ∀ other ∈ later, other.span.Fits source
    · obtain ⟨edited, happlied, hfits⟩ := fits_applied hc hf
      rw [applyInReverse, happlied, Option.bind_some, Span.replace_eq_none_iff, hfits]
      constructor
      · exact fun hbad => ⟨fix, .head _, hbad⟩
      · rintro ⟨bad, hm, hbad⟩
        rcases List.mem_cons.mp hm with rfl | hm
        · exact hbad
        · exact absurd (hf bad hm) hbad
    · -- The fixes behind this one have failed before it is its turn.
      obtain ⟨bad, hm, hbad⟩ : ∃ bad ∈ later, ¬bad.span.Fits source := by simpa using hf
      have hnone := hlater.mpr ⟨bad, hm, hbad⟩
      rw [applyInReverse, hnone]
      exact ⟨fun _ => ⟨bad, .tail _ hm, hbad⟩, fun _ => rfl⟩

/-- Fixes cannot be applied exactly if one that is kept has a span that runs backward, ends behind
the text as it was, or starts or ends inside one of its characters. -/
theorem applyFixes_eq_none_iff (source : Text) (fixes : List Fix) :
    (applyFixes source fixes = none ↔ ∃ fix ∈ (select fixes).kept,
      fix.span.stop < fix.span.start ∨ byteLength source < fix.span.stop ∨
        ¬IsBoundary source fix.span.start ∨ ¬IsBoundary source fix.span.stop) ∧
    applyFixes source (select fixes).kept = applyFixes source fixes ∧
    ∀ others : List Fix, others.map Fix.span = fixes.map Fix.span →
      (applyFixes source others = none ↔ applyFixes source fixes = none) := by
  have hnone (fixes : List Fix) : applyFixes source fixes = none ↔
      ∃ span ∈ (select fixes).kept.map Fix.span, ¬span.Fits source := by
    have hchain : (select fixes).kept.IsChain fun a b => a.span.stop ≤ b.span.start :=
      (selectFrom_chain 0 _).2
    rw [applyFixes, applyInReverse_eq_none_iff hchain]
    simp
  refine ⟨?_, ?_, fun others hs => ?_⟩
  · rw [hnone]
    simp [Span.not_fits_iff]
  · rw [applyFixes, select_kept, applyFixes]
  · rw [hnone, hnone, select_spans hs]

def accentedText : Text :=
  "éa".toList

/-- The second span fits no text so short, but it starts inside the first. -/
def overreachingFixes (replacement : Text) : List Fix :=
  [⟨⟨0, 2⟩, replacement⟩, ⟨⟨1, 9⟩, []⟩]

/-- The span that begins inside a character is kept, and so is the one behind it. -/
def splittingFixes : List Fix :=
  [⟨⟨2, 3⟩, ['b']⟩, ⟨⟨1, 2⟩, []⟩]

theorem splittingFixes_select :
    select splittingFixes = ⟨[⟨⟨1, 2⟩, []⟩, ⟨⟨2, 3⟩, ['b']⟩], []⟩ := by
  cbv

theorem accentedText_refuses : applyFixes accentedText splittingFixes = none ∧
    applyFixes accentedText (overreachingFixes ['e']) = some "ea".toList ∧
    (overreachingFixes []).map Fix.span = (overreachingFixes ['e']).map Fix.span ∧
    applyFixes accentedText (overreachingFixes []) ≠ none := by
  have hsplit : ¬IsBoundary accentedText 1 := by decide
  have hnone : applyFixes accentedText splittingFixes = none := by
    refine (applyFixes_eq_none_iff accentedText splittingFixes).1.mpr ?_
    rw [splittingFixes_select]
    exact ⟨⟨⟨1, 2⟩, []⟩, .head _, .inr (.inr (.inl hsplit))⟩
  have hshort : applyFixes accentedText (overreachingFixes ['e']) = some "ea".toList := by
    cbv
  have hspans : (overreachingFixes []).map Fix.span = (overreachingFixes ['e']).map Fix.span := rfl
  have hsame := (applyFixes_eq_none_iff accentedText (overreachingFixes ['e'])).2.2 _ hspans
  refine ⟨hnone, hshort, hspans, fun hempty => ?_⟩
  rw [hsame, hshort] at hempty
  cases hempty

end DirectImports
