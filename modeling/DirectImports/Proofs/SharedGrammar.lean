import DirectImports.Proofs.Pieces

/-! The readers of import declarations in two languages. `type` is the only word that TypeScript
reads in its own way, so that what both languages read is the same in both. -/

namespace DirectImports

section Bindings

variable {text rest : Text} {specifier : Specifier} {specifiers : List Specifier}

theorem readAfterTypeAs_typed (h : readAfterTypeAs false text = some (specifier, rest)) :
    readAfterTypeAs true text = some (specifier, rest) := by
  unfold readAfterTypeAs at h ⊢
  cases hk : readKeyword "as" text with
  | some behind =>
    simp only [hk] at h ⊢
    cases hn : readExportName behind with
    | some found => simp [hn] at h
    | none => simpa only [hn] using h
  | none =>
    simp only [hk] at h ⊢
    cases hn : readExportName text with
    | some found => simpa only [hn] using h
    | none => simp [hn] at h

theorem readAfterType_typed (h : readAfterType false text = some (specifier, rest)) :
    readAfterType true text = some (specifier, rest) := by
  unfold readAfterType at h ⊢
  cases hk : readKeyword "as" text with
  | some behind =>
    simp only [hk] at h ⊢
    exact readAfterTypeAs_typed h
  | none =>
    simp only [hk] at h ⊢
    cases hn : readExportName text with
    | some found => simp [hn] at h
    | none => simpa only [hn] using h

theorem readSpecifier_typed (h : readSpecifier false text = some (specifier, rest)) :
    readSpecifier true text = some (specifier, rest) := by
  simp only [readSpecifier] at h ⊢
  cases ht : (nextToken text).token with
  | word word =>
    simp only [ht] at h ⊢
    by_cases hw : word.is "type" = true
    · rw [if_pos hw] at h ⊢
      exact readAfterType_typed h
    · rwa [if_neg hw] at h ⊢
  | literal value => simpa only [ht] using h
  | _ => simp [ht] at h

theorem readSpecifiers_typed {fuel : Nat}
    (h : readSpecifiers false fuel text = some (specifiers, rest)) :
    readSpecifiers true fuel text = some (specifiers, rest) := by
  induction fuel generalizing text specifiers with
  | zero => simp [readSpecifiers] at h
  | succ fuel ih =>
    unfold readSpecifiers at h ⊢
    cases hm : readMark .closeBrace text with
    | some behind => simpa only [hm] using h
    | none =>
      simp only [hm] at h ⊢
      obtain ⟨⟨first, behind⟩, hs, h⟩ := Option.bind_eq_some_iff.mp h
      dsimp only at h
      rw [readSpecifier_typed hs, Option.bind_eq_bind, Option.bind_some]
      dsimp only
      cases hc : readMark .comma behind with
      | none => simpa only [hc] using h
      | some next =>
        simp only [hc] at h ⊢
        obtain ⟨⟨later, last⟩, hl, h⟩ := Option.bind_eq_some_iff.mp h
        obtain ⟨rfl, rfl⟩ : first :: later = specifiers ∧ last = rest :=
          Prod.mk.inj (Option.some.inj h)
        rw [ih hl]
        rfl

theorem readBraced_typed (h : readBraced false text = some (specifiers, rest)) :
    readBraced true text = some (specifiers, rest) := by
  unfold readBraced at h ⊢
  cases hm : readMark .star text with
  | some behind => simpa only [hm] using h
  | none =>
    simp only [hm] at h ⊢
    obtain ⟨behind, hb, h⟩ := Option.bind_eq_some_iff.mp h
    rw [hb]
    exact readSpecifiers_typed h

theorem readBindings_typed (h : readBindings false text = some (specifiers, rest)) :
    readBindings true text = some (specifiers, rest) := by
  unfold readBindings at h ⊢
  cases hb : readBinding text with
  | none =>
    simp only [hb] at h ⊢
    exact readBraced_typed h
  | some found =>
    simp only [hb] at h ⊢
    cases hm : readMark .comma found.2 with
    | none => simpa only [hm] using h
    | some behind =>
      simp only [hm] at h ⊢
      obtain ⟨⟨others, last⟩, hs, h⟩ := Option.bind_eq_some_iff.mp h
      rw [readBraced_typed hs]
      exact h

end Bindings

/-! From the word of a phase on, either language refuses something that the other one reads. -/

section Clauses

variable {text : Text} {typescript typescript' : Bool}

theorem readBindings_agree {found found' : List Specifier × Text}
    (h : readBindings false text = some found) (h' : readBindings true text = some found') :
    found = found' :=
  Option.some.inj ((readBindings_typed h).symm.trans h')

theorem readSourceBinding_agree {found found' : List Specifier × Text}
    (h : readSourceBinding false text = some found)
    (h' : readSourceBinding true text = some found') : found = found' := by
  obtain ⟨name, hname, hb⟩ := readSourceBinding_eq h
  obtain ⟨name', hname', hb'⟩ := readSourceBinding_eq h'
  obtain ⟨rfl, hrest⟩ := Prod.mk.inj (Option.some.inj (hb.symm.trans hb'))
  exact Prod.ext (hname.trans hname'.symm) hrest

theorem readPhase_agree {found found' : List Specifier × Text}
    (h : readPhase false text = some found) (h' : readPhase true text = some found') :
    found = found' := by
  unfold readPhase at h h'
  cases hs : readKeyword "source" text with
  | some behind =>
    simp only [hs] at h h'
    by_cases hm : sourceModifies behind = true
    · rw [if_pos hm] at h h'
      exact readSourceBinding_agree h h'
    · rw [if_neg hm] at h h'
      exact readBindings_agree h h'
  | none =>
    cases hd : readKeyword "defer" text with
    | some behind =>
      simp only [hs, hd] at h h'
      exact readBindings_agree h h'
    | none =>
      simp only [hs, hd] at h h'
      exact readBindings_agree h h'

theorem readModified_agree {found found' : ImportClause × Text}
    (h : readModified false text = some found) (h' : readModified true text = some found') :
    found = found' := by
  unfold readModified at h h'
  cases hk : readKeyword "type" text with
  | some behind =>
    simp only [hk] at h h'
    by_cases hm : typeModifies behind = true
    · simp [hm] at h
    · rw [if_neg hm] at h h'
      obtain ⟨x, hx, h⟩ := Option.bind_eq_some_iff.mp h
      obtain ⟨y, hy, h'⟩ := Option.bind_eq_some_iff.mp h'
      obtain rfl := readBindings_agree hx hy
      exact Option.some.inj (h.symm.trans h')
  | none =>
    simp only [hk] at h h'
    obtain ⟨x, hx, h⟩ := Option.bind_eq_some_iff.mp h
    obtain ⟨y, hy, h'⟩ := Option.bind_eq_some_iff.mp h'
    obtain rfl := readPhase_agree hx hy
    exact Option.some.inj (h.symm.trans h')

theorem readClause_agree {found found' : ImportClause × Text}
    (h : readClause false text = some found) (h' : readClause true text = some found') :
    found = found' := by
  unfold readClause at h h'
  cases hs : readString text with
  | some value =>
    simp only [hs] at h h'
    exact Option.some.inj (h.symm.trans h')
  | none =>
    simp only [hs] at h h'
    by_cases hb : isBareFrom text = true
    · rw [if_pos hb] at h h'
      exact Option.some.inj (h.symm.trans h')
    · rw [if_neg hb] at h h'
      obtain ⟨x, hx, h⟩ := Option.bind_eq_some_iff.mp h
      obtain ⟨y, hy, h'⟩ := Option.bind_eq_some_iff.mp h'
      obtain rfl := readModified_agree hx hy
      exact Option.some.inj (h.symm.trans h')

theorem readAfterImport_agree {found found' : ImportClause × Text × Text}
    (h : readAfterImport false text = some found) (h' : readAfterImport true text = some found') :
    found = found' := by
  obtain ⟨x, hx, h⟩ := Option.bind_eq_some_iff.mp h
  obtain ⟨y, hy, h'⟩ := Option.bind_eq_some_iff.mp h'
  obtain rfl := readClause_agree hx hy
  exact Option.some.inj (h.symm.trans h')

theorem readImport_agree {found found' : ImportDeclaration × Text}
    (h : readImport typescript text = some found) (h' : readImport typescript' text = some found') :
    found = found' := by
  have hmixed {found found' : ImportDeclaration × Text} (h : readImport false text = some found)
      (h' : readImport true text = some found') : found = found' := by
    obtain ⟨behind, hk, h⟩ := Option.bind_eq_some_iff.mp h
    obtain ⟨_, hk', h'⟩ := Option.bind_eq_some_iff.mp h'
    obtain rfl := Option.some.inj (hk.symm.trans hk')
    obtain ⟨x, hx, h⟩ := Option.bind_eq_some_iff.mp h
    obtain ⟨y, hy, h'⟩ := Option.bind_eq_some_iff.mp h'
    obtain rfl := readAfterImport_agree hx hy
    exact Option.some.inj (h.symm.trans h')
  cases typescript <;> cases typescript'
  · exact Option.some.inj (h.symm.trans h')
  · exact hmixed h h'
  · exact (hmixed h' h).symm
  · exact Option.some.inj (h.symm.trans h')

end Clauses

end DirectImports
