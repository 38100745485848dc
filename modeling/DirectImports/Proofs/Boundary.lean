import DirectImports.Proofs.Splice

/-! Where a text can be cut, and which spans fit it. Whether a span fits depends only on the text up
to where it ends. -/

namespace DirectImports

/-- Whether an offset stands between two characters of a text, or at one of its ends. -/
def IsBoundary (text : Text) (offset : Nat) : Prop :=
  ∃ before after, text = before ++ after ∧ byteLength before = offset

theorem byteLength_eq_zero {text : Text} (h : byteLength text = 0) : text = [] := by
  cases text with
  | nil => rfl
  | cons c text =>
    have hc := c.utf8Size_pos
    simp only [byteLength] at h
    omega

theorem eq_append_of_cutAt {offset : Nat} {text before after : Text}
    (h : cutAt offset text = some (before, after)) :
    text = before ++ after ∧ byteLength before = offset := by
  induction text generalizing offset before with
  | nil =>
    cases offset with
    | zero =>
      obtain ⟨rfl, rfl⟩ := Prod.mk.inj (Option.some.inj h)
      exact ⟨rfl, rfl⟩
    | succ offset => cases h
  | cons c text ih =>
    cases offset with
    | zero =>
      obtain ⟨rfl, rfl⟩ := Prod.mk.inj (Option.some.inj h)
      exact ⟨rfl, rfl⟩
    | succ offset =>
      rw [cutAt] at h
      by_cases hc : c.utf8Size ≤ offset + 1
      · rw [if_pos hc] at h
        obtain ⟨⟨front, rest⟩, hcut, h⟩ := Option.map_eq_some_iff.mp h
        obtain ⟨rfl, rfl⟩ := Prod.mk.inj h
        obtain ⟨htext, hlength⟩ := ih hcut
        refine ⟨by rw [htext, List.cons_append], ?_⟩
        simp only [byteLength, hlength]
        omega
      · rw [if_neg hc] at h
        cases h

theorem isBoundary_iff {text : Text} {offset : Nat} :
    IsBoundary text offset ↔ (cutAt offset text).isSome = true := by
  constructor
  · rintro ⟨before, after, rfl, rfl⟩
    rw [cutAt_append, Option.isSome_some]
  · intro h
    obtain ⟨⟨before, after⟩, hcut⟩ := Option.isSome_iff_exists.mp h
    exact ⟨before, after, eq_append_of_cutAt hcut⟩

instance (text : Text) (offset : Nat) : Decidable (IsBoundary text offset) :=
  decidable_of_iff _ isBoundary_iff.symm

/-- Of two beginnings of a text the one of fewer bytes begins the other. -/
theorem exists_append_of_byteLength_le {a b after after' : Text}
    (h : a ++ after = b ++ after') (hl : byteLength a ≤ byteLength b) :
    ∃ gap, b = a ++ gap ∧ after = gap ++ after' := by
  rcases List.append_eq_append_iff.mp h with ⟨gap, hb, ha⟩ | ⟨gap, ha, hb⟩
  · exact ⟨gap, hb, ha⟩
  · rw [ha, byteLength_append] at hl
    have hgap : gap = [] := byteLength_eq_zero (by omega)
    subst hgap
    exact ⟨[], by simpa using ha.symm, by simpa using hb.symm⟩

theorem isBoundary_append {front behind : Text} {offset : Nat}
    (h : offset ≤ byteLength front) :
    IsBoundary (front ++ behind) offset ↔ IsBoundary front offset := by
  constructor
  · rintro ⟨before, after, htext, rfl⟩
    obtain ⟨gap, hfront, -⟩ := exists_append_of_byteLength_le htext.symm h
    exact ⟨before, gap, hfront, rfl⟩
  · rintro ⟨before, after, rfl, rfl⟩
    exact ⟨before, after ++ behind, List.append_assoc .., rfl⟩

structure Span.Fits (span : Span) (text : Text) : Prop where
  forward : span.start ≤ span.stop
  inside : span.stop ≤ byteLength text
  start : IsBoundary text span.start
  stop : IsBoundary text span.stop

theorem Span.not_fits_iff {span : Span} {text : Text} :
    ¬span.Fits text ↔ span.stop < span.start ∨ byteLength text < span.stop ∨
      ¬IsBoundary text span.start ∨ ¬IsBoundary text span.stop := by
  have hfits : span.Fits text ↔ span.start ≤ span.stop ∧ span.stop ≤ byteLength text ∧
      IsBoundary text span.start ∧ IsBoundary text span.stop :=
    ⟨fun h => ⟨h.forward, h.inside, h.start, h.stop⟩, fun ⟨hf, hi, hs, he⟩ => ⟨hf, hi, hs, he⟩⟩
  simp only [hfits, Classical.not_and_iff_not_or_not, Nat.not_le]

/-- A span that fits a text has something before it, inside it and behind it. -/
theorem Span.fits_iff {span : Span} {text : Text} :
    span.Fits text ↔ ∃ before inside after, text = before ++ (inside ++ after) ∧
      span = ⟨byteLength before, byteLength before + byteLength inside⟩ := by
  constructor
  · intro h
    obtain ⟨before, rest, htext, hstart⟩ := h.start
    obtain ⟨front, after, htext', hstop⟩ := h.stop
    have hle : byteLength before ≤ byteLength front := by
      rw [hstart, hstop]
      exact h.forward
    obtain ⟨inside, hfront, hrest⟩ :=
      exists_append_of_byteLength_le (htext.symm.trans htext') hle
    refine ⟨before, inside, after, by rw [htext, hrest], ?_⟩
    rw [← byteLength_append, ← hfront, hstart, hstop]
  · rintro ⟨before, inside, after, rfl, rfl⟩
    refine ⟨by simp, ?_, ⟨before, inside ++ after, rfl, rfl⟩,
      ⟨before ++ inside, after, by simp, byteLength_append before inside⟩⟩
    simp only [byteLength_append]
    omega

theorem Span.split_isSome_iff {span : Span} {text : Text} :
    (span.split text).isSome = true ↔ span.Fits text := by
  rw [Span.fits_iff]
  constructor
  · intro h
    obtain ⟨⟨before, inside, after⟩, hsplit⟩ := Option.isSome_iff_exists.mp h
    by_cases hf : span.stop < span.start
    · simp [Span.split, hf] at hsplit
    · simp only [Span.split, hf, if_false] at hsplit
      obtain ⟨⟨front, rest⟩, hfront, hsplit⟩ := Option.bind_eq_some_iff.mp hsplit
      obtain ⟨⟨middle, behind⟩, hmiddle, -⟩ := Option.bind_eq_some_iff.mp hsplit
      obtain ⟨htext, hstart⟩ := eq_append_of_cutAt hfront
      obtain ⟨hrest, hlength⟩ := eq_append_of_cutAt hmiddle
      refine ⟨front, middle, behind, htext.trans (congrArg _ hrest), ?_⟩
      rw [hstart, hlength, Nat.add_sub_cancel' (Nat.le_of_not_lt hf)]
  · rintro ⟨before, inside, after, rfl, rfl⟩
    rw [Span.split_append, Option.isSome_some]

instance (span : Span) (text : Text) : Decidable (span.Fits text) :=
  decidable_of_iff _ Span.split_isSome_iff

theorem Span.replace_eq_none_iff {span : Span} {replacement text : Text} :
    span.replace replacement text = none ↔ ¬span.Fits text := by
  rw [← Span.split_isSome_iff, Span.replace, Option.map_eq_none_iff]
  simp

theorem Span.fits_append {span : Span} {front behind : Text}
    (h : span.stop ≤ byteLength front) : span.Fits (front ++ behind) ↔ span.Fits front := by
  have hlength : byteLength (front ++ behind) = byteLength front + byteLength behind :=
    byteLength_append front behind
  constructor
  · intro hf
    have hstart := Nat.le_trans hf.forward h
    exact ⟨hf.forward, h, (isBoundary_append hstart).mp hf.start,
      (isBoundary_append h).mp hf.stop⟩
  · intro hf
    have hstart := Nat.le_trans hf.forward h
    exact ⟨hf.forward, by omega, (isBoundary_append hstart).mpr hf.start,
      (isBoundary_append h).mpr hf.stop⟩

end DirectImports
