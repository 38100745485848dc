import DirectImports.Proofs.Lexemes
import DirectImports.Proofs.Reading

/-! Texts that begin alike. A declaration is read again in front of any other text, and with the
same result. -/

namespace DirectImports

/-- Two texts with the same tokens, and lines that end before the same ones, up to their edges. -/
inductive Alike (ex ey : Text) : Text → Text → Prop
  | edge : Alike ex ey ex ey
  | next {x y : Text} (hi : (nextToken x).token.inImport = true)
      (ht : (nextToken y).token = (nextToken x).token)
      (hb : (nextToken y).broken = (nextToken x).broken)
      (later : Alike ex ey (nextToken x).rest (nextToken y).rest) : Alike ex ey x y

theorem Closes.alike {a b : Text} (h : Closes (a ++ b) b) (b' : Text) :
    Alike b b' (a ++ b) (a ++ b') := by
  obtain ⟨last, hl, he, hr⟩ := h
  have hb : IsBehind b last := hr ▸ nextToken_isBehind (Token.inImport_of_endsItself he)
  generalize ht : a ++ b = text at hl
  induction hl generalizing a with
  | refl =>
    subst ht
    obtain ⟨s, -, hs⟩ :=
      nextToken_append (t := []) hr.symm (Token.inImport_of_endsItself he) (.inr he)
    refine .next (Token.inImport_of_endsItself he) (by rw [hs b']) (by rw [hs b']) ?_
    rw [hs b', ← hr]
    exact .edge
  | next hi later ih =>
    subst ht
    have hrest := hb.suffix later.suffix
    obtain ⟨t, ht⟩ := hrest.1
    have hne : t ≠ [] := by
      rintro rfl
      exact absurd hrest.2 (by simp [← ht])
    obtain ⟨s, -, hs⟩ := nextToken_append ht.symm hi (.inl hne)
    refine .next hi (by rw [hs b']) (by rw [hs b']) ?_
    rw [hs b']
    exact ih he hr hb ht

/-- Tokens in front of some code are read again if more code follows. -/
theorem Reaches.alike {text rest : Text} (h : Reaches text rest) (hr : rest ≠ []) (more : Text) :
    Alike rest (rest ++ more) text (text ++ more) := by
  induction h with
  | refl => exact .edge
  | @next text rest hi later ih =>
    have hne : (nextToken text).rest ≠ [] := fun hn =>
      hr (List.suffix_nil.mp (hn ▸ later.suffix))
    obtain ⟨s, -, hs⟩ := nextToken_append (a := text) (b := []) (List.append_nil _).symm
      (by rwa [List.append_nil]) (.inl (by rwa [List.append_nil]))
    have hmore := hs more
    rw [List.append_nil] at hmore
    refine .next hi (by rw [hmore]) (by rw [hmore]) ?_
    rw [hmore]
    exact ih hr

section

variable {ex ey x y x' : Text} {typescript : Bool}

theorem Alike.inside (h : Alike ex ey x y) (hl : ex.length < x.length) :
    (nextToken y).token = (nextToken x).token ∧ (nextToken y).broken = (nextToken x).broken ∧
      Alike ex ey (nextToken x).rest (nextToken y).rest := by
  cases h with
  | edge => omega
  | next hi ht hb later => exact ⟨ht, hb, later⟩

theorem readMark_congr (ht : (nextToken y).token = (nextToken x).token) (mark : Mark) :
    readMark mark y = (readMark mark x).map fun _ => (nextToken y).rest := by
  have he : (nextToken y).is mark = (nextToken x).is mark := by simp only [View.is, ht]
  simp only [readMark, he]
  split <;> rfl

theorem readKeyword_congr (ht : (nextToken y).token = (nextToken x).token) (keyword : String) :
    readKeyword keyword y = (readKeyword keyword x).map fun _ => (nextToken y).rest := by
  have he : (nextToken y).isWord keyword = (nextToken x).isWord keyword := by
    simp only [View.isWord, ht]
  simp only [readKeyword, he]
  split <;> rfl

theorem readString_congr (ht : (nextToken y).token = (nextToken x).token) :
    readString y = (readString x).map fun read => (read.1, (nextToken y).rest) := by
  simp only [readString, ht]
  split <;> simp

theorem readBinding_congr (ht : (nextToken y).token = (nextToken x).token) :
    readBinding y = (readBinding x).map fun read => (read.1, (nextToken y).rest) := by
  simp only [readBinding, ht]
  split
  · split <;> simp
  · simp

theorem readExportName_congr (ht : (nextToken y).token = (nextToken x).token) :
    readExportName y = (readExportName x).map fun read => (read.1, (nextToken y).rest) := by
  simp only [readExportName, ht]
  split <;> simp

theorem readAlias_alike {name : Text} {isType : Bool} {specifier : Specifier}
    (h : Alike ex ey x y) (hr : readAlias name isType x = some (specifier, x'))
    (hl : ex.length < x'.length) :
    ∃ y', readAlias name isType y = some (specifier, y') ∧ Alike ex ey x' y' := by
  have hx := (readAlias_reaches hr).length_le
  obtain ⟨ht, -, hn⟩ := h.inside (by omega)
  unfold readAlias at hr ⊢
  rw [readKeyword_congr ht]
  cases hk : readKeyword "as" x with
  | none =>
    rw [hk] at hr
    obtain ⟨rfl, rfl⟩ := Prod.mk.inj (Option.some.inj hr)
    exact ⟨y, rfl, h⟩
  | some u =>
    rw [hk] at hr
    obtain rfl := (readKeyword_eq hk).2
    obtain ⟨⟨localName, _⟩, hb, hr⟩ := Option.bind_eq_some_iff.mp hr
    obtain ⟨rfl, rfl⟩ := Prod.mk.inj (Option.some.inj hr)
    have hlt := (readExportName_passes hb).length_lt
    obtain ⟨ht, -, hn⟩ := hn.inside (by omega)
    obtain rfl := (readExportName_eq hb).2
    exact ⟨_, by simp [readExportName_congr ht, hb], hn⟩

theorem readAfterTypeAs_alike {specifier : Specifier} (h : Alike ex ey x y)
    (hr : readAfterTypeAs typescript x = some (specifier, x')) (hl : ex.length < x'.length) :
    ∃ y', readAfterTypeAs typescript y = some (specifier, y') ∧ Alike ex ey x' y' := by
  have hx := (readAfterTypeAs_reaches hr).length_le
  obtain ⟨ht, -, hn⟩ := h.inside (by omega)
  unfold readAfterTypeAs at hr ⊢
  rw [readKeyword_congr ht]
  cases hk : readKeyword "as" x with
  | some u =>
    rw [hk] at hr
    obtain rfl := (readKeyword_eq hk).2
    dsimp only [Option.map_some] at hr ⊢
    have hu : x'.length ≤ (nextToken x).rest.length := by
      split at hr
      next hb =>
        obtain ⟨-, hr⟩ := Option.ite_none_right_eq_some.mp hr
        obtain ⟨-, rfl⟩ := Prod.mk.inj (Option.some.inj hr)
        exact (readExportName_passes hb).reaches.length_le
      next =>
        obtain ⟨-, rfl⟩ := Prod.mk.inj (Option.some.inj hr)
        exact Nat.le_refl _
    obtain ⟨ht, -, hn'⟩ := hn.inside (by omega)
    rw [readExportName_congr ht]
    cases hb : readExportName (nextToken x).rest with
    | some read =>
      rw [hb] at hr
      obtain ⟨hts, hr⟩ := Option.ite_none_right_eq_some.mp hr
      obtain ⟨rfl, rfl⟩ := Prod.mk.inj (Option.some.inj hr)
      rw [(readExportName_eq hb).2]
      exact ⟨_, by simp [hts], hn'⟩
    | none =>
      rw [hb] at hr
      obtain ⟨rfl, rfl⟩ := Prod.mk.inj (Option.some.inj hr)
      exact ⟨_, rfl, hn⟩
  | none =>
    rw [hk] at hr
    dsimp only [Option.map_none] at hr ⊢
    rw [readExportName_congr ht]
    cases hb : readExportName x with
    | some read =>
      rw [hb] at hr
      obtain ⟨rfl, rfl⟩ := Prod.mk.inj (Option.some.inj hr)
      rw [(readExportName_eq hb).2]
      exact ⟨_, rfl, hn⟩
    | none =>
      rw [hb] at hr
      obtain ⟨hts, hr⟩ := Option.ite_none_right_eq_some.mp hr
      obtain ⟨rfl, rfl⟩ := Prod.mk.inj (Option.some.inj hr)
      exact ⟨y, by simp [hts], h⟩

theorem readAfterType_alike {specifier : Specifier} (h : Alike ex ey x y)
    (hr : readAfterType typescript x = some (specifier, x')) (hl : ex.length < x'.length) :
    ∃ y', readAfterType typescript y = some (specifier, y') ∧ Alike ex ey x' y' := by
  have hx := (readAfterType_reaches hr).length_le
  obtain ⟨ht, -, hn⟩ := h.inside (by omega)
  unfold readAfterType at hr ⊢
  rw [readKeyword_congr ht]
  cases hk : readKeyword "as" x with
  | some u =>
    rw [hk] at hr
    obtain rfl := (readKeyword_eq hk).2
    exact readAfterTypeAs_alike hn hr hl
  | none =>
    rw [hk] at hr
    dsimp only [Option.map_none] at hr ⊢
    rw [readExportName_congr ht]
    cases hb : readExportName x with
    | some read =>
      rw [hb] at hr
      obtain ⟨hts, hr⟩ := Option.ite_none_right_eq_some.mp hr
      rw [(readExportName_eq hb).2] at hr
      simpa [hts] using readAlias_alike hn hr hl
    | none =>
      rw [hb] at hr
      obtain ⟨rfl, rfl⟩ := Prod.mk.inj (Option.some.inj hr)
      exact ⟨y, rfl, h⟩

theorem readSpecifier_alike {specifier : Specifier} (h : Alike ex ey x y)
    (hr : readSpecifier typescript x = some (specifier, x')) (hl : ex.length < x'.length) :
    ∃ y', readSpecifier typescript y = some (specifier, y') ∧ Alike ex ey x' y' := by
  have hx := (readSpecifier_passes hr).length_lt
  obtain ⟨ht, -, hn⟩ := h.inside (by omega)
  simp only [readSpecifier, ht] at hr ⊢
  split at hr
  next word hw =>
    split at hr
    next htype => simpa [hw, htype] using readAfterType_alike hn hr hl
    next htype => simpa [hw, htype] using readAlias_alike hn hr hl
  next value hv => simpa [hv] using readAlias_alike hn hr hl
  next => simp at hr

/-- The number of steps matters only as long as it is too small for the text. -/
theorem readSpecifiers_alike {fuel : Nat} {specifiers : List Specifier} (h : Alike ex ey x y)
    (hr : readSpecifiers typescript fuel x = some (specifiers, x'))
    (hl : ex.length ≤ x'.length) {fuel' : Nat} (hf : y.length < fuel') :
    ∃ y', readSpecifiers typescript fuel' y = some (specifiers, y') ∧ Alike ex ey x' y' := by
  induction fuel generalizing x y specifiers fuel' with
  | zero => simp [readSpecifiers] at hr
  | succ fuel ih =>
    obtain ⟨fuel', rfl⟩ := Nat.exists_eq_add_one_of_ne_zero (Nat.ne_zero_of_lt hf)
    have hx := (readSpecifiers_passes hr).length_lt
    obtain ⟨ht, -, hn⟩ := h.inside (by omega)
    unfold readSpecifiers at hr ⊢
    rw [readMark_congr ht]
    cases hm : readMark .closeBrace x with
    | some u =>
      rw [hm] at hr
      obtain ⟨rfl, rfl⟩ := Prod.mk.inj (Option.some.inj hr)
      rw [(readMark_eq hm).2]
      exact ⟨_, rfl, hn⟩
    | none =>
      rw [hm] at hr
      obtain ⟨⟨specifier, u⟩, hs, hr⟩ := Option.bind_eq_some_iff.mp hr
      dsimp only at hr
      have hu : x'.length < u.length := by
        split at hr
        next hc =>
          obtain ⟨⟨later, last⟩, hlater, hr⟩ := Option.bind_eq_some_iff.mp hr
          obtain ⟨-, rfl⟩ : _ ∧ last = x' := Prod.mk.inj (Option.some.inj hr)
          have hlt := (readMark_passes hc rfl).length_lt
          have hlt' := (readSpecifiers_passes hlater).length_lt
          omega
        next =>
          obtain ⟨_, hc, hr⟩ := Option.bind_eq_some_iff.mp hr
          obtain ⟨-, rfl⟩ := Prod.mk.inj (Option.some.inj hr)
          exact (readMark_passes hc rfl).length_lt
      obtain ⟨v, hs', hv⟩ := readSpecifier_alike h hs (by omega)
      obtain ⟨ht', -, hn'⟩ := hv.inside (by omega)
      have hvlt := (readSpecifier_passes hs').length_lt
      simp only [Option.map_none, hs', Option.bind_eq_bind, Option.bind_some,
        readMark_congr ht']
      cases hc : readMark .comma u with
      | some w =>
        rw [hc] at hr
        obtain ⟨⟨later, _⟩, hlater, hr⟩ := Option.bind_eq_some_iff.mp hr
        obtain ⟨rfl, rfl⟩ := Prod.mk.inj (Option.some.inj hr)
        rw [(readMark_eq hc).2] at hlater
        have hi : (nextToken v).token.inImport = true := by
          rw [ht', (readMark_eq hc).1]
          rfl
        have hv' := (nextToken_isBehind hi).2
        have hf' : (nextToken v).rest.length < fuel' := by omega
        obtain ⟨y', hy, hy'⟩ := ih hn' hlater hf'
        exact ⟨y', by simp [hy], hy'⟩
      | none =>
        rw [hc] at hr
        obtain ⟨_, hclose, hr⟩ := Option.bind_eq_some_iff.mp hr
        obtain ⟨rfl, rfl⟩ := Prod.mk.inj (Option.some.inj hr)
        rw [(readMark_eq hclose).2]
        exact ⟨_, by simp [hclose], hn'⟩

theorem readBraced_alike {specifiers : List Specifier} (h : Alike ex ey x y)
    (hr : readBraced typescript x = some (specifiers, x')) (hl : ex.length ≤ x'.length) :
    ∃ y', readBraced typescript y = some (specifiers, y') ∧ Alike ex ey x' y' := by
  have hx := (readBraced_passes hr).length_lt
  obtain ⟨ht, -, hn⟩ := h.inside (by omega)
  unfold readBraced at hr ⊢
  rw [readMark_congr ht]
  cases hm : readMark .star x with
  | some u =>
    rw [hm] at hr
    obtain ⟨_, hk, hr⟩ := Option.bind_eq_some_iff.mp hr
    obtain ⟨⟨localName, last⟩, hb, hr⟩ := Option.bind_eq_some_iff.mp hr
    obtain ⟨rfl, rfl⟩ : _ ∧ last = x' := Prod.mk.inj (Option.some.inj hr)
    have hlt := (readKeyword_passes hk).length_lt
    have hlt' := (readBinding_passes hb).length_lt
    rw [(readMark_eq hm).2] at hk hlt
    obtain ⟨ht, -, hn⟩ := hn.inside (by omega)
    rw [(readKeyword_eq hk).2] at hb hlt'
    obtain ⟨ht', -, hn⟩ := hn.inside (by omega)
    rw [(readBinding_eq hb).2]
    exact ⟨_, by simp [readKeyword_congr ht, hk, readBinding_congr ht', hb], hn⟩
  | none =>
    rw [hm] at hr
    obtain ⟨u, ho, hr⟩ := Option.bind_eq_some_iff.mp hr
    obtain rfl := (readMark_eq ho).2
    obtain ⟨y', hy, hy'⟩ := readSpecifiers_alike hn hr hl (Nat.lt_succ_self _)
    exact ⟨y', by simp [readMark_congr ht, ho, hy], hy'⟩

theorem readBindings_alike {specifiers : List Specifier} (h : Alike ex ey x y)
    (hr : readBindings typescript x = some (specifiers, x')) (hl : ex.length < x'.length) :
    ∃ y', readBindings typescript y = some (specifiers, y') ∧ Alike ex ey x' y' := by
  have hx := (readBindings_passes hr).length_lt
  obtain ⟨ht, -, hn⟩ := h.inside (by omega)
  unfold readBindings at hr ⊢
  rw [readBinding_congr ht]
  cases hb : readBinding x with
  | some read =>
    obtain ⟨name, u⟩ := read
    rw [hb] at hr
    obtain rfl := (readBinding_eq hb).2
    dsimp only [Option.map_some] at hr ⊢
    have hu : x'.length ≤ (nextToken x).rest.length := by
      split at hr
      next hm =>
        obtain ⟨⟨others, last⟩, hs, hr⟩ := Option.bind_eq_some_iff.mp hr
        obtain ⟨-, rfl⟩ : _ ∧ last = x' := Prod.mk.inj (Option.some.inj hr)
        exact ((readMark_passes hm rfl).trans (readBraced_passes hs).reaches).reaches.length_le
      next =>
        obtain ⟨-, rfl⟩ := Prod.mk.inj (Option.some.inj hr)
        exact Nat.le_refl _
    obtain ⟨ht, -, hn'⟩ := hn.inside (by omega)
    rw [readMark_congr ht]
    cases hm : readMark .comma (nextToken x).rest with
    | some v =>
      rw [hm] at hr
      obtain rfl := (readMark_eq hm).2
      obtain ⟨⟨others, last⟩, hs, hr⟩ := Option.bind_eq_some_iff.mp hr
      obtain ⟨rfl, rfl⟩ : _ ∧ last = x' := Prod.mk.inj (Option.some.inj hr)
      obtain ⟨y', hy, hy'⟩ := readBraced_alike hn' hs (Nat.le_of_lt hl)
      exact ⟨y', by simp [hy], hy'⟩
    | none =>
      rw [hm] at hr
      obtain ⟨rfl, rfl⟩ := Prod.mk.inj (Option.some.inj hr)
      exact ⟨_, rfl, hn⟩
  | none =>
    rw [hb] at hr
    exact readBraced_alike h hr (Nat.le_of_lt hl)

theorem readSourceBinding_alike {specifiers : List Specifier} (h : Alike ex ey x y)
    (hr : readSourceBinding typescript x = some (specifiers, x')) (hl : ex.length < x'.length) :
    ∃ y', readSourceBinding typescript y = some (specifiers, y') ∧ Alike ex ey x' y' := by
  obtain ⟨name, rfl, hb⟩ := readSourceBinding_eq hr
  have hx := (readBinding_passes hb).length_lt
  obtain ⟨ht, -, hn⟩ := h.inside (by omega)
  obtain rfl := (readBinding_eq hb).2
  refine ⟨_, ?_, hn⟩
  simp only [readSourceBinding, hb, readBinding_congr ht, Option.map_some, Option.bind_eq_bind,
    Option.bind_some] at hr ⊢
  split at hr
  · simp at hr
  next hts =>
    rw [if_neg hts]
    rfl

theorem hasKeyword_congr (ht : (nextToken y).token = (nextToken x).token) (keyword : String) :
    hasKeyword keyword y = hasKeyword keyword x := by
  simp only [hasKeyword, readKeyword_congr ht, Option.isSome_map]

theorem hasMark_congr (ht : (nextToken y).token = (nextToken x).token) (mark : Mark) :
    hasMark mark y = hasMark mark x := by
  simp only [hasMark, readMark_congr ht, Option.isSome_map]

/-- Whether `type` or `source` is a modifier depends on the second token only behind a `from`. -/
theorem typeModifies_alike (h : Alike ex ey x y) (hl : ex.length < x.length)
    (hf : ∀ u, readKeyword "from" x = some u → ex.length < u.length) :
    typeModifies y = typeModifies x := by
  obtain ⟨ht, -, hn⟩ := h.inside hl
  unfold typeModifies
  rw [readKeyword_congr ht]
  cases hk : readKeyword "from" x with
  | some u =>
    have hu := hf u hk
    obtain rfl := (readKeyword_eq hk).2
    have ht' := (hn.inside hu).1
    simp only [Option.map_some, hasKeyword_congr ht', hasMark_congr ht']
  | none => simp only [Option.map_none, readBinding_congr ht, hasMark_congr ht, Option.isSome_map]

theorem sourceModifies_alike (h : Alike ex ey x y) (hl : ex.length < x.length)
    (hf : ∀ u, readKeyword "from" x = some u → ex.length < u.length) :
    sourceModifies y = sourceModifies x := by
  obtain ⟨ht, -, hn⟩ := h.inside hl
  unfold sourceModifies
  rw [readKeyword_congr ht]
  cases hk : readKeyword "from" x with
  | some u =>
    have hu := hf u hk
    obtain rfl := (readKeyword_eq hk).2
    exact hasKeyword_congr (hn.inside hu).1 "from"
  | none => simp only [Option.map_none, readBinding_congr ht, Option.isSome_map]

/-- A binding before `from` is the only one. -/
theorem readBindings_before_from {keyword : String} {text u v rest : Text}
    {specifiers : List Specifier} (hk : readKeyword keyword text = some u)
    (hn : isReserved keyword.toList = false)
    (hb : readBindings typescript text = some (specifiers, rest))
    (hf : readKeyword "from" u = some v) :
    specifiers = [.byDefault keyword.toList] ∧ rest = u := by
  obtain ⟨⟨word, hw, hword⟩, rfl⟩ := readKeyword_eq hk
  have hbind : readBinding text = some (keyword.toList, (nextToken text).rest) := by
    simp [readBinding, hw, hword, hn]
  have hcomma : readMark .comma (nextToken text).rest = none := by
    cases hm : readMark .comma (nextToken text).rest with
    | none => rfl
    | some _ =>
      obtain ⟨⟨word', hw', -⟩, -⟩ := readKeyword_eq hf
      have hm' := (readMark_eq hm).1
      rw [hw'] at hm'
      simp at hm'
  simp only [readBindings, hbind, hcomma, Option.some.injEq, Prod.mk.injEq] at hb
  exact ⟨hb.1.symm, hb.2.symm⟩

theorem readPhase_alike {specifiers : List Specifier} {behind : Text} (h : Alike ex ey x y)
    (hr : readPhase typescript x = some (specifiers, x'))
    (hf : readKeyword "from" x' = some behind) (hl : ex.length < behind.length) :
    ∃ y', readPhase typescript y = some (specifiers, y') ∧ Alike ex ey x' y' := by
  have hx := (readPhase_passes hr).length_lt
  have hx' := (readKeyword_passes hf).length_lt
  obtain ⟨ht, -, hn⟩ := h.inside (by omega)
  unfold readPhase at hr ⊢
  rw [readKeyword_congr ht, readKeyword_congr ht]
  cases hs : readKeyword "source" x with
  | some u =>
    rw [hs] at hr
    have hu : u = (nextToken x).rest := (readKeyword_eq hs).2
    dsimp only [Option.map_some] at hr ⊢
    have hle : x'.length ≤ u.length ∧
        ∀ v, readKeyword "from" u = some v → ex.length < v.length := by
      split at hr
      next hm =>
        obtain ⟨name, -, hb⟩ := readSourceBinding_eq hr
        have hlt := (readBinding_passes hb).length_lt
        refine ⟨by omega, fun v hv => ?_⟩
        rw [(readKeyword_eq hv).2, ← (readBinding_eq hb).2]
        omega
      next hm =>
        have hp := (readBindings_passes hr).2.length_le
        refine ⟨by rw [hu]; exact hp, fun v hv => ?_⟩
        obtain rfl := (readBindings_before_from hs rfl hr hv).2
        rw [hf] at hv
        exact Option.some.inj hv ▸ hl
    subst hu
    rw [sourceModifies_alike hn (by omega) hle.2]
    split at hr
    next hm =>
      rw [if_pos hm]
      exact readSourceBinding_alike hn hr (by omega)
    next hm =>
      rw [if_neg hm]
      exact readBindings_alike h hr (by omega)
  | none =>
    rw [hs] at hr
    cases hd : readKeyword "defer" x with
    | some u =>
      rw [hd] at hr
      obtain rfl := (readKeyword_eq hd).2
      dsimp only [Option.map_some, Option.map_none] at hr ⊢
      have hle : x'.length ≤ (nextToken x).rest.length := by
        split at hr
        · exact (readBindings_passes hr).reaches.length_le
        · exact (readBindings_passes hr).2.length_le
      rw [hasMark_congr (hn.inside (by omega)).1]
      split at hr
      next hm =>
        rw [if_pos hm]
        exact readBindings_alike hn hr (by omega)
      next hm =>
        rw [if_neg hm]
        exact readBindings_alike h hr (by omega)
    | none =>
      rw [hd] at hr
      exact readBindings_alike h hr (by omega)

theorem readModified_alike {clause : ImportClause} {behind : Text} (h : Alike ex ey x y)
    (hr : readModified typescript x = some (clause, x'))
    (hf : readKeyword "from" x' = some behind) (hl : ex.length < behind.length) :
    ∃ y', readModified typescript y = some (clause, y') ∧ Alike ex ey x' y' := by
  have hx := (readModified_passes hr).length_lt
  have hx' := (readKeyword_passes hf).length_lt
  obtain ⟨ht, -, hn⟩ := h.inside (by omega)
  unfold readModified at hr ⊢
  rw [readKeyword_congr ht]
  cases hk : readKeyword "type" x with
  | some u =>
    rw [hk] at hr
    have hu : u = (nextToken x).rest := (readKeyword_eq hk).2
    dsimp only [Option.map_some] at hr ⊢
    have hle : x'.length ≤ u.length ∧
        ∀ v, readKeyword "from" u = some v → ex.length < v.length := by
      split at hr
      next hm =>
        split at hr
        · simp at hr
        · obtain ⟨⟨specifiers, last⟩, hb, hr⟩ := Option.bind_eq_some_iff.mp hr
          obtain ⟨-, rfl⟩ : _ ∧ last = x' := Prod.mk.inj (Option.some.inj hr)
          have hp := readBindings_passes hb
          have hlt := hp.2.length_le
          refine ⟨hp.reaches.length_le, fun v hv => ?_⟩
          rw [(readKeyword_eq hv).2]
          omega
      next hm =>
        obtain ⟨⟨specifiers, last⟩, hb, hr⟩ := Option.bind_eq_some_iff.mp hr
        obtain ⟨-, rfl⟩ : _ ∧ last = x' := Prod.mk.inj (Option.some.inj hr)
        have hp := (readBindings_passes hb).2.length_le
        refine ⟨by rw [hu]; exact hp, fun v hv => ?_⟩
        obtain rfl := (readBindings_before_from hk rfl hb hv).2
        rw [hf] at hv
        exact Option.some.inj hv ▸ hl
    subst hu
    rw [typeModifies_alike hn (by omega) hle.2]
    split at hr
    next hm =>
      rw [if_pos hm]
      split at hr
      · simp at hr
      next hts =>
        obtain ⟨⟨specifiers, last⟩, hb, hr⟩ := Option.bind_eq_some_iff.mp hr
        obtain ⟨rfl, rfl⟩ : _ ∧ last = x' := Prod.mk.inj (Option.some.inj hr)
        obtain ⟨y', hy, hy'⟩ := readBindings_alike hn hb (by omega)
        exact ⟨y', by simp [hts, hy], hy'⟩
    next hm =>
      rw [if_neg hm]
      obtain ⟨⟨specifiers, last⟩, hb, hr⟩ := Option.bind_eq_some_iff.mp hr
      obtain ⟨rfl, rfl⟩ : _ ∧ last = x' := Prod.mk.inj (Option.some.inj hr)
      obtain ⟨y', hy, hy'⟩ := readBindings_alike h hb (by omega)
      exact ⟨y', by simp [hy], hy'⟩
  | none =>
    rw [hk] at hr
    obtain ⟨⟨specifiers, last⟩, hb, hr⟩ := Option.bind_eq_some_iff.mp hr
    obtain ⟨rfl, rfl⟩ : _ ∧ last = x' := Prod.mk.inj (Option.some.inj hr)
    obtain ⟨y', hy, hy'⟩ := readPhase_alike h hb hf hl
    exact ⟨y', by simp [hy], hy'⟩

theorem isBareFrom_alike (h : Alike ex ey x y) (hl : ex.length < x.length)
    (hf : ∀ u, readKeyword "from" x = some u → ex.length < u.length) :
    isBareFrom y = isBareFrom x := by
  obtain ⟨ht, -, hn⟩ := h.inside hl
  unfold isBareFrom
  rw [readKeyword_congr ht]
  cases hk : readKeyword "from" x with
  | some u =>
    have hu := hf u hk
    obtain rfl := (readKeyword_eq hk).2
    simp [readString_congr (hn.inside hu).1]
  | none => rfl

theorem readClause_alike {clause : ImportClause} (h : Alike ex ey x y)
    (hr : readClause typescript x = some (clause, x')) (hl : ex.length < x'.length) :
    ∃ y', readClause typescript y = some (clause, y') ∧ Alike ex ey x' y' := by
  have hx := (readClause_reaches hr).length_le
  obtain ⟨ht, -, hn⟩ := h.inside (by omega)
  have hs' := readString_congr ht
  rcases readClause_eq hr with ⟨hs, rfl, rfl⟩ | ⟨hs, hb, rfl, hk⟩ | ⟨hs, hb, u, hm, hk⟩
  · obtain ⟨read, hs⟩ := Option.isSome_iff_exists.mp hs
    exact ⟨y, by simp [readClause, hs', hs], h⟩
  · have hf : ∀ u, readKeyword "from" x = some u → ex.length < u.length := by
      intro u hu
      rw [hk] at hu
      exact Option.some.inj hu ▸ hl
    have hb' := (isBareFrom_alike h (by omega) hf).trans hb
    have hk' := readKeyword_congr ht "from"
    obtain rfl := (readKeyword_eq hk).2
    exact ⟨_, by simp [readClause, hs', hs, hb', hk', hk], hn⟩
  · have hlt := (readKeyword_passes hk).length_lt
    have hf : ∀ u, readKeyword "from" x = some u → ex.length < u.length := by
      intro v hv
      have hle := (readModified_passes hm).2.length_le
      rw [(readKeyword_eq hv).2]
      omega
    have hb' := (isBareFrom_alike h (by omega) hf).trans hb
    obtain ⟨v, hm', hv⟩ := readModified_alike h hm hk hl
    obtain ⟨ht', -, hn'⟩ := hv.inside (by omega)
    have hk' := readKeyword_congr ht' "from"
    obtain rfl := (readKeyword_eq hk).2
    exact ⟨_, by simp [readClause, hs', hs, hb', hm', hk', hk], hn'⟩

theorem readAttribute_alike (h : Alike ex ey x y) (hr : readAttribute x = some x')
    (hl : ex.length ≤ x'.length) :
    ∃ y', readAttribute y = some y' ∧ Alike ex ey x' y' := by
  obtain ⟨⟨key, u⟩, hn, hr⟩ := Option.bind_eq_some_iff.mp hr
  obtain ⟨v, hm, hr⟩ := Option.bind_eq_some_iff.mp hr
  obtain ⟨⟨value, _⟩, hs, hr⟩ := Option.bind_eq_some_iff.mp hr
  obtain rfl := Option.some.inj hr
  have hlu := (readExportName_passes hn).length_lt
  have hlv := (readMark_passes hm rfl).length_lt
  have hlw := (readString_passes hs).length_lt
  obtain ⟨ht, -, h⟩ := h.inside (by omega)
  obtain rfl := (readExportName_eq hn).2
  obtain ⟨ht', -, h⟩ := h.inside (by omega)
  obtain rfl := (readMark_eq hm).2
  obtain ⟨ht'', -, h⟩ := h.inside (by omega)
  obtain rfl := (readString_eq hs).2
  exact ⟨_, by simp [readAttribute, readExportName_congr ht, hn, readMark_congr ht', hm,
    readString_congr ht'', hs], h⟩

theorem readAttributes_alike {fuel : Nat} (h : Alike ex ey x y)
    (hr : readAttributes fuel x = some x') (hl : ex.length ≤ x'.length) {fuel' : Nat}
    (hf : y.length < fuel') :
    ∃ y', readAttributes fuel' y = some y' ∧ Alike ex ey x' y' := by
  induction fuel generalizing x y fuel' with
  | zero => simp [readAttributes] at hr
  | succ fuel ih =>
    obtain ⟨fuel', rfl⟩ := Nat.exists_eq_add_one_of_ne_zero (Nat.ne_zero_of_lt hf)
    have hx := (readAttributes_closes hr).length_lt
    obtain ⟨ht, -, hn⟩ := h.inside (by omega)
    unfold readAttributes at hr ⊢
    rw [readMark_congr ht]
    cases hm : readMark .closeBrace x with
    | some u =>
      rw [hm] at hr
      obtain rfl := Option.some.inj hr
      rw [(readMark_eq hm).2]
      exact ⟨_, rfl, hn⟩
    | none =>
      rw [hm] at hr
      obtain ⟨u, ha, hr⟩ := Option.bind_eq_some_iff.mp hr
      have hu : x'.length < u.length := by
        split at hr
        next hc =>
          have hlt := (readMark_passes hc rfl).length_lt
          have hlt' := (readAttributes_closes hr).length_lt
          omega
        next => exact (readMark_passes hr rfl).length_lt
      obtain ⟨v, ha', hv⟩ := readAttribute_alike h ha (by omega)
      obtain ⟨ht', -, hn'⟩ := hv.inside (by omega)
      have hvlt := (readAttribute_passes ha').length_lt
      simp only [Option.map_none, ha', Option.bind_eq_bind, Option.bind_some, readMark_congr ht']
      cases hc : readMark .comma u with
      | some w =>
        rw [hc] at hr
        rw [(readMark_eq hc).2] at hr
        have hi : (nextToken v).token.inImport = true := by
          rw [ht', (readMark_eq hc).1]
          rfl
        have hv' := (nextToken_isBehind hi).2
        have hf' : (nextToken v).rest.length < fuel' := by omega
        exact ih hn' hr hf'
      | none =>
        rw [hc] at hr
        simp only at hr
        rw [(readMark_eq hr).2, hr]
        exact ⟨_, rfl, hn'⟩

theorem readAttributeKeyword_congr (ht : (nextToken y).token = (nextToken x).token)
    (hb : (nextToken y).broken = (nextToken x).broken) :
    readAttributeKeyword y = (readAttributeKeyword x).map fun _ => (nextToken y).rest := by
  have he (keyword : String) : (nextToken y).isWord keyword = (nextToken x).isWord keyword := by
    simp only [View.isWord, ht]
  simp only [readAttributeKeyword, he, hb]
  split <;> rfl

theorem Alike.length_le (h : Alike ex ey x y) : ex.length ≤ x.length := by
  induction h with
  | edge => exact Nat.le_refl _
  | next hi _ _ _ ih => exact Nat.le_trans ih (Nat.le_of_lt (nextToken_isBehind hi).2)

theorem Alike.eq_edge (h : Alike ex ey ex y) : y = ey := by
  cases h with
  | edge => rfl
  | next hi _ _ later =>
    have hlt := (nextToken_isBehind hi).2
    have hle := later.length_le
    omega

theorem readAttributeClause_alike (h : Alike ex ey x y) (hr : readAttributeClause x = some x')
    (hl : ex.length ≤ x'.length) (hx : ex.length < x.length) :
    ∃ y', readAttributeClause y = some y' ∧ Alike ex ey x' y' := by
  obtain ⟨ht, hb, hn⟩ := h.inside hx
  unfold readAttributeClause at hr ⊢
  rw [readAttributeKeyword_congr ht hb]
  cases hk : readAttributeKeyword x with
  | none =>
    rw [hk] at hr
    obtain rfl := Option.some.inj hr
    exact ⟨y, rfl, h⟩
  | some u =>
    rw [hk] at hr
    obtain rfl : (nextToken x).rest = u :=
      Option.some.inj (Option.ite_none_right_eq_some.mp hk).2
    obtain ⟨v, hm, hr⟩ := Option.bind_eq_some_iff.mp hr
    have hlt := (readMark_passes hm rfl).length_lt
    have hlt' := (readAttributes_closes hr).length_lt
    obtain ⟨ht', -, hn'⟩ := hn.inside (by omega)
    obtain rfl := (readMark_eq hm).2
    obtain ⟨y', hy, hy'⟩ := readAttributes_alike hn' hr hl (Nat.lt_succ_self _)
    exact ⟨y', by simp [readMark_congr ht', hm, hy], hy'⟩

/-- A declaration that may end at one edge may end at the other. -/
structure EndsAlike (ex ey : Text) : Prop where
  attributes : readAttributeKeyword ex = none → readAttributeKeyword ey = none
  stop : readEnd ex = some ex → readEnd ey = some ey

theorem readEnd_alike (h : Alike ex ey x y) (hr : readEnd x = some ex)
    (he : readEnd ex = some ex → readEnd ey = some ey) : readEnd y = some ey := by
  by_cases hx : ex.length < x.length
  · obtain ⟨ht, -, hn⟩ := h.inside hx
    have hs : (nextToken x).is .semicolon = true := by
      unfold readEnd at hr
      dsimp only at hr
      split at hr
      · assumption
      · obtain ⟨-, hr⟩ := Option.ite_none_right_eq_some.mp hr
        rw [Option.some.inj hr] at hx
        omega
    have hs' : (nextToken y).is .semicolon = true := by
      rw [View.is_iff, ht, View.is_iff.mp hs]
    have hrest : (nextToken x).rest = ex := by simpa [readEnd, hs] using hr
    rw [hrest] at hn
    simp [readEnd, hs', hn.eq_edge]
  · have hle := h.length_le
    rcases readEnd_closes hr with rfl | hc
    · rw [h.eq_edge]
      exact he hr
    · have hlt := hc.length_lt
      omega

theorem readAfterImport_alike {clause : ImportClause} {source : Text} (h : Alike ex ey x y)
    (hr : readAfterImport typescript x = some (clause, source, ex)) (he : EndsAlike ex ey) :
    readAfterImport typescript y = some (clause, source, ey) := by
  obtain ⟨⟨clause, u⟩, hc, hr⟩ := Option.bind_eq_some_iff.mp hr
  obtain ⟨⟨source, v⟩, hs, hr⟩ := Option.bind_eq_some_iff.mp hr
  obtain ⟨w, ha, hr⟩ := Option.bind_eq_some_iff.mp hr
  obtain ⟨last, hend, hr⟩ := Option.bind_eq_some_iff.mp hr
  simp only [pure, Option.some.injEq, Prod.mk.injEq] at hr
  obtain ⟨rfl, rfl, hlast⟩ := hr
  rw [hlast] at hend
  have hu := (readString_passes hs).length_lt
  have hv : w = v ∧ readAttributeKeyword v = none ∨ w.length < v.length := by
    rcases readAttributeClause_closes ha with ⟨hk, rfl⟩ | ha
    · exact .inl ⟨rfl, hk⟩
    · exact .inr ha.length_lt
  have hw : ex = w ∨ ex.length < w.length :=
    (readEnd_closes hend).imp_right Closes.length_lt
  have hle : ex.length ≤ v.length := by
    rcases hv with ⟨rfl, -⟩ | hv <;> rcases hw with rfl | hw <;> omega
  obtain ⟨u', hc', hu'⟩ := readClause_alike h hc (by omega)
  obtain ⟨ht, -, hv'⟩ := hu'.inside (by omega)
  have hs' := readString_congr ht
  rw [hs] at hs'
  obtain rfl := (readString_eq hs).2
  have hclause : ∃ w', readAttributeClause (nextToken u').rest = some w' ∧ Alike ex ey w w' := by
    by_cases hin : ex.length < (nextToken u).rest.length
    · exact readAttributeClause_alike hv' ha (by rcases hw with rfl | hw <;> omega) hin
    · obtain ⟨rfl, hk⟩ := hv.resolve_right (by rcases hw with rfl | hw <;> omega)
      obtain rfl := hw.resolve_right hin
      rw [hv'.eq_edge]
      exact ⟨ey, by simp [readAttributeClause, he.attributes hk], .edge⟩
  obtain ⟨w', ha', hw'⟩ := hclause
  have hend' := readEnd_alike hw' hend he.stop
  simp [readAfterImport, hc', hs', ha', hend']

end

/-- A declaration is read again in front of a text before which it may end. -/
theorem readImport_append {typescript : Bool} {a b : Text} {declaration : ImportDeclaration}
    (h : readImport typescript (a ++ b) = some (declaration, b)) {b' : Text}
    (he : EndsAlike b b') : readImport typescript (a ++ b') = some (declaration, b') := by
  have halike := (readImport_closes h).alike b'
  have hlt := (readImport_closes h).length_lt
  obtain ⟨u, hk, hr⟩ := Option.bind_eq_some_iff.mp h
  obtain ⟨⟨clause, source, _⟩, ha, hr⟩ := Option.bind_eq_some_iff.mp hr
  obtain ⟨rfl, rfl⟩ := Prod.mk.inj (Option.some.inj hr)
  obtain ⟨ht, -, hn⟩ := halike.inside hlt
  have hk' := readKeyword_congr ht "import"
  rw [hk] at hk'
  obtain rfl := (readKeyword_eq hk).2
  simp [readImport, hk', readAfterImport_alike hn ha he]

theorem readBraced_settled {typescript : Bool} {text rest : Text} {specifiers : List Specifier}
    (h : readBraced typescript text = some (specifiers, rest)) (hr : rest ≠ []) (more : Text) :
    readBraced typescript (text ++ more) = some (specifiers, rest ++ more) := by
  have halike := (readBraced_passes h).reaches.alike hr more
  obtain ⟨rest', hread, hedge⟩ := readBraced_alike halike h (Nat.le_refl _)
  rw [hread, hedge.eq_edge]

theorem endsAlike_settled {text : Text} (h : (nextToken text).isSettled = true) (more : Text) :
    EndsAlike text (text ++ more) := by
  have hnext := nextToken_settled h more
  constructor
  · intro ha
    simpa [readAttributeKeyword, hnext, Lexed.extend] using ha
  · intro he
    simp only [readEnd, hnext, Lexed.extend] at he ⊢
    split at he
    next hs => rw [if_pos hs, Option.some.inj he]
    next hs =>
      obtain ⟨hends, -⟩ := Option.ite_none_right_eq_some.mp he
      rw [if_neg hs, if_pos hends]

/-- A declaration is told by its text and the next token. -/
theorem readImport_settled {typescript : Bool} {text rest : Text}
    {declaration : ImportDeclaration} (h : readImport typescript text = some (declaration, rest))
    (hs : (nextToken rest).isSettled = true) (more : Text) :
    readImport typescript (text ++ more) = some (declaration, rest ++ more) := by
  obtain ⟨code, rfl⟩ := (readImport_closes h).reaches.suffix
  rw [List.append_assoc]
  exact readImport_append h (endsAlike_settled hs more)

end DirectImports
