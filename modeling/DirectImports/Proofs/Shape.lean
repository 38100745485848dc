import DirectImports.Proofs.Pieces

/-! Which specifiers a declaration can have: perhaps a default one, and then a namespace or names.
Only TypeScript knows imports of types. -/

namespace DirectImports

/-- A named specifier, for types only where there are types. -/
def Specifier.IsNamedIn (typescript : Bool) (specifier : Specifier) : Prop :=
  specifier.isNamed = true ∧ (specifier.isType = true → typescript = true)

structure HasShape (typescript isTypeOnly : Bool) (specifiers : List Specifier) : Prop where
  types : isTypeOnly = true → typescript = true
  split : ∃ front back, specifiers = front ++ back ∧
    (front = [] ∨ ∃ name, front = [.byDefault name]) ∧
    ((∃ name, back = [.entire name]) ∨ ∀ specifier ∈ back, specifier.IsNamedIn typescript)

section

variable {typescript : Bool} {text rest : Text} {specifier : Specifier}
  {specifiers : List Specifier}

theorem readAlias_named {name : Text} {isType : Bool}
    (h : readAlias name isType text = some (specifier, rest)) :
    specifier.isNamed = true ∧ specifier.isType = isType := by
  unfold readAlias at h
  split at h
  · obtain ⟨_, _, h⟩ := Option.bind_eq_some_iff.mp h
    obtain ⟨rfl, -⟩ := Prod.mk.inj (Option.some.inj h)
    exact ⟨rfl, rfl⟩
  · obtain ⟨rfl, -⟩ := Prod.mk.inj (Option.some.inj h)
    exact ⟨rfl, rfl⟩

theorem readAfterTypeAs_named (h : readAfterTypeAs typescript text = some (specifier, rest)) :
    specifier.IsNamedIn typescript := by
  unfold readAfterTypeAs at h
  split at h
  · split at h
    · obtain ⟨hts, h⟩ := Option.ite_none_right_eq_some.mp h
      obtain ⟨rfl, -⟩ := Prod.mk.inj (Option.some.inj h)
      exact ⟨rfl, fun _ => hts⟩
    · obtain ⟨rfl, -⟩ := Prod.mk.inj (Option.some.inj h)
      exact ⟨rfl, fun ht => absurd ht (by simp [Specifier.isType])⟩
  · split at h
    · obtain ⟨rfl, -⟩ := Prod.mk.inj (Option.some.inj h)
      exact ⟨rfl, fun ht => absurd ht (by simp [Specifier.isType])⟩
    · obtain ⟨hts, h⟩ := Option.ite_none_right_eq_some.mp h
      obtain ⟨rfl, -⟩ := Prod.mk.inj (Option.some.inj h)
      exact ⟨rfl, fun _ => hts⟩

theorem readAfterType_named (h : readAfterType typescript text = some (specifier, rest)) :
    specifier.IsNamedIn typescript := by
  unfold readAfterType at h
  split at h
  · exact readAfterTypeAs_named h
  · split at h
    · obtain ⟨hts, h⟩ := Option.ite_none_right_eq_some.mp h
      exact ⟨(readAlias_named h).1, fun _ => hts⟩
    · obtain ⟨rfl, -⟩ := Prod.mk.inj (Option.some.inj h)
      exact ⟨rfl, fun ht => absurd ht (by simp [Specifier.isType])⟩

theorem readSpecifier_named (h : readSpecifier typescript text = some (specifier, rest)) :
    specifier.IsNamedIn typescript := by
  have halias {name : Text} {text : Text}
      (h : readAlias name false text = some (specifier, rest)) :
      specifier.IsNamedIn typescript :=
    ⟨(readAlias_named h).1, fun ht => absurd ht (by simp [(readAlias_named h).2])⟩
  simp only [readSpecifier] at h
  split at h
  · split at h
    · exact readAfterType_named h
    · exact halias h
  · exact halias h
  · simp at h

theorem readSpecifiers_named {fuel : Nat}
    (h : readSpecifiers typescript fuel text = some (specifiers, rest)) :
    ∀ specifier ∈ specifiers, specifier.IsNamedIn typescript := by
  induction fuel generalizing text specifiers with
  | zero => simp [readSpecifiers] at h
  | succ fuel ih =>
    unfold readSpecifiers at h
    split at h
    · obtain ⟨rfl, -⟩ := Prod.mk.inj (Option.some.inj h)
      simp
    · obtain ⟨⟨first, behind⟩, hs, h⟩ := Option.bind_eq_some_iff.mp h
      have hfirst := readSpecifier_named hs
      dsimp only at h
      split at h
      · obtain ⟨⟨later, last⟩, hl, h⟩ := Option.bind_eq_some_iff.mp h
        obtain ⟨rfl, rfl⟩ : _ ∧ last = rest := Prod.mk.inj (Option.some.inj h)
        exact List.forall_mem_cons.mpr ⟨hfirst, ih hl⟩
      · obtain ⟨_, _, h⟩ := Option.bind_eq_some_iff.mp h
        obtain ⟨rfl, -⟩ := Prod.mk.inj (Option.some.inj h)
        exact List.forall_mem_singleton.mpr hfirst

theorem readBraced_shape (h : readBraced typescript text = some (specifiers, rest)) :
    (∃ name, specifiers = [.entire name]) ∨
      ∀ specifier ∈ specifiers, specifier.IsNamedIn typescript := by
  unfold readBraced at h
  split at h
  · obtain ⟨_, _, h⟩ := Option.bind_eq_some_iff.mp h
    obtain ⟨⟨name, _⟩, _, h⟩ := Option.bind_eq_some_iff.mp h
    obtain ⟨rfl, -⟩ := Prod.mk.inj (Option.some.inj h)
    exact .inl ⟨name, rfl⟩
  · obtain ⟨_, _, h⟩ := Option.bind_eq_some_iff.mp h
    exact .inr (readSpecifiers_named h)

theorem readBindings_shape {isTypeOnly : Bool} (ht : isTypeOnly = true → typescript = true)
    (h : readBindings typescript text = some (specifiers, rest)) :
    HasShape typescript isTypeOnly specifiers := by
  unfold readBindings at h
  split at h
  next name _ _ =>
    split at h
    · obtain ⟨⟨back, _⟩, hb, h⟩ := Option.bind_eq_some_iff.mp h
      obtain ⟨rfl, -⟩ := Prod.mk.inj (Option.some.inj h)
      exact ⟨ht, [.byDefault name], back, rfl, .inr ⟨name, rfl⟩, readBraced_shape hb⟩
    · obtain ⟨rfl, -⟩ := Prod.mk.inj (Option.some.inj h)
      exact ⟨ht, [.byDefault name], [], rfl, .inr ⟨name, rfl⟩, .inr (by simp)⟩
  next => exact ⟨ht, [], specifiers, rfl, .inl rfl, readBraced_shape h⟩

theorem readPhase_shape (h : readPhase typescript text = some (specifiers, rest)) :
    HasShape typescript false specifiers := by
  unfold readPhase at h
  split at h
  · split at h
    · obtain ⟨name, rfl, -⟩ := readSourceBinding_eq h
      exact ⟨by simp, [.byDefault name], [], rfl, .inr ⟨name, rfl⟩, .inr (by simp)⟩
    · exact readBindings_shape (by simp) h
  · exact readBindings_shape (by simp) h
  · exact readBindings_shape (by simp) h

theorem readModified_shape {clause : ImportClause}
    (h : readModified typescript text = some (clause, rest)) :
    HasShape typescript clause.isTypeOnly clause.specifiers := by
  unfold readModified at h
  split at h
  · split at h
    · split at h
      · simp at h
      next hts =>
        obtain ⟨_, hb, h⟩ := Option.bind_eq_some_iff.mp h
        obtain ⟨rfl, -⟩ := Prod.mk.inj (Option.some.inj h)
        exact readBindings_shape (fun _ => by simpa using hts) hb
    · obtain ⟨_, hb, h⟩ := Option.bind_eq_some_iff.mp h
      obtain ⟨rfl, -⟩ := Prod.mk.inj (Option.some.inj h)
      exact readBindings_shape (by simp) hb
  · obtain ⟨_, hb, h⟩ := Option.bind_eq_some_iff.mp h
    obtain ⟨rfl, -⟩ := Prod.mk.inj (Option.some.inj h)
    exact readPhase_shape hb

theorem readClause_shape {clause : ImportClause}
    (h : readClause typescript text = some (clause, rest)) :
    HasShape typescript clause.isTypeOnly clause.specifiers := by
  have hempty : HasShape typescript false [] := ⟨by simp, [], [], rfl, .inl rfl, .inr (by simp)⟩
  rcases readClause_eq h with ⟨-, rfl, -⟩ | ⟨-, -, rfl, -⟩ | ⟨-, -, behind, hm, -⟩
  · exact hempty
  · exact hempty
  · exact readModified_shape hm

theorem readImport_shape {declaration : ImportDeclaration}
    (h : readImport typescript text = some (declaration, rest)) :
    HasShape typescript declaration.isTypeOnly declaration.specifiers := by
  obtain ⟨clause, source, behind, -, ha, rfl⟩ := readImport_eq h
  obtain ⟨⟨clause, _⟩, hc, ha⟩ := Option.bind_eq_some_iff.mp ha
  obtain ⟨_, _, ha⟩ := Option.bind_eq_some_iff.mp ha
  obtain ⟨_, _, ha⟩ := Option.bind_eq_some_iff.mp ha
  obtain ⟨_, _, ha⟩ := Option.bind_eq_some_iff.mp ha
  simp only [pure, Option.some.injEq, Prod.mk.injEq] at ha
  obtain ⟨rfl, -, -⟩ := ha
  exact readClause_shape hc

end

/-- Beside names there is at most a default specifier. -/
theorem HasShape.others {typescript isTypeOnly : Bool} {specifiers : List Specifier}
    (h : HasShape typescript isTypeOnly specifiers)
    (hn : specifiers.any Specifier.isNamed = true) :
    specifiers.filter (fun specifier => !specifier.isNamed) = [] ∨
      ∃ name, specifiers.filter (fun specifier => !specifier.isNamed) = [.byDefault name] := by
  obtain ⟨front, back, rfl, hf, hb⟩ := h.split
  have hback : back.filter (fun specifier => !specifier.isNamed) = [] := by
    rcases hb with ⟨name, rfl⟩ | hb
    · rcases hf with rfl | ⟨name', rfl⟩ <;> simp [Specifier.isNamed] at hn
    · exact List.filter_eq_nil_iff.mpr fun specifier hs => by simp [(hb specifier hs).1]
  rw [List.filter_append, hback, List.append_nil]
  rcases hf with rfl | ⟨name, rfl⟩
  · exact .inl rfl
  · exact .inr ⟨name, rfl⟩

theorem HasShape.isType {typescript isTypeOnly : Bool} {specifiers : List Specifier}
    (h : HasShape typescript isTypeOnly specifiers) :
    ∀ specifier ∈ specifiers, specifier.isType = true → typescript = true := by
  obtain ⟨front, back, rfl, hf, hb⟩ := h.split
  intro specifier hs ht
  rcases List.mem_append.mp hs with hs | hs
  · rcases hf with rfl | ⟨name, rfl⟩
    · simp at hs
    · obtain rfl := List.mem_singleton.mp hs
      simp [Specifier.isType] at ht
  · rcases hb with ⟨name, rfl⟩ | hb
    · obtain rfl := List.mem_singleton.mp hs
      simp [Specifier.isType] at ht
    · exact (hb specifier hs).2 ht

theorem HasShape.typed {typescript isTypeOnly : Bool} {specifiers : List Specifier}
    (h : HasShape typescript isTypeOnly specifiers) : HasShape true isTypeOnly specifiers := by
  obtain ⟨front, back, hs, hf, hb⟩ := h.split
  exact ⟨fun _ => rfl, front, back, hs, hf,
    hb.imp_right fun hb specifier hm => ⟨(hb specifier hm).1, fun _ => rfl⟩⟩

end DirectImports
