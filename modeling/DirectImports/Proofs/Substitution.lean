import Mathlib.Data.List.Infix
import DirectImports.Pattern

/-! What a template becomes when a name is filled in. The first placeholder gives way to the name,
and everything else stays. -/

namespace DirectImports

/-- A text around the first occurrence of another. -/
structure SplitsFirst (needle text before after : Text) : Prop where
  text_eq : text = before ++ needle ++ after
  shortest : ∀ before' after', text = before' ++ needle ++ after' →
    before.length ≤ before'.length

theorem splitFirst_splits {needle text before after : Text}
    (h : splitFirst needle text = some (before, after)) :
    SplitsFirst needle text before after := by
  refine ⟨splitFirst_eq h, ?_⟩
  induction text generalizing before with
  | nil =>
    have hnil : before ++ needle ++ after = [] := (splitFirst_eq h).symm
    obtain ⟨hfront, -⟩ := List.append_eq_nil_iff.mp hnil
    obtain ⟨rfl, -⟩ := List.append_eq_nil_iff.mp hfront
    exact fun before' after' _ => Nat.zero_le _
  | cons c text ih =>
    intro before' after' htext
    simp only [splitFirst] at h
    by_cases hp : needle.isPrefixOf (c :: text) = true
    · rw [if_pos hp] at h
      obtain ⟨rfl, -⟩ := Prod.mk.inj (Option.some.inj h)
      exact Nat.zero_le _
    · rw [if_neg hp] at h
      obtain ⟨⟨front, behind⟩, hsplit, h⟩ := Option.map_eq_some_iff.mp h
      obtain ⟨rfl, rfl⟩ := Prod.mk.inj h
      cases before' with
      | nil => exact absurd (List.isPrefixOf_iff_prefix.mpr ⟨after', htext.symm⟩) hp
      | cons d before' =>
        obtain ⟨-, htext⟩ := List.cons.inj htext
        exact Nat.succ_le_succ (ih hsplit before' after' htext)

theorem SplitsFirst.isInfix {needle text before after : Text}
    (h : SplitsFirst needle text before after) : needle <:+: text :=
  ⟨before, after, h.text_eq.symm⟩

theorem SplitsFirst.unique {needle text before after before' after' : Text}
    (h : SplitsFirst needle text before after) (h' : SplitsFirst needle text before' after') :
    before' = before ∧ after' = after := by
  have hlength : before'.length = before.length :=
    Nat.le_antisymm (h'.shortest before after h.text_eq) (h.shortest before' after' h'.text_eq)
  have htext : before' ++ (needle ++ after') = before ++ (needle ++ after) := by
    rw [← List.append_assoc, ← List.append_assoc, ← h'.text_eq, ← h.text_eq]
  obtain ⟨hbefore, hrest⟩ := List.append_inj htext hlength
  exact ⟨hbefore, List.append_cancel_left hrest⟩

theorem contains_iff {needle text : Text} : contains needle text = true ↔ needle <:+: text := by
  constructor
  · intro h
    obtain ⟨⟨before, after⟩, hsplit⟩ := Option.isSome_iff_exists.mp h
    exact ⟨before, after, (splitFirst_eq hsplit).symm⟩
  · rintro ⟨before, after, rfl⟩
    induction before with
    | nil =>
      cases needle with
      | nil => cases after <;> simp [contains, splitFirst]
      | cons c needle => simp [contains, splitFirst]
    | cons c before ih =>
      simp only [contains, List.cons_append, splitFirst] at ih ⊢
      split
      · rfl
      · rw [Option.isSome_map]
        exact ih

theorem splitFirst_eq_none_iff {needle text : Text} :
    splitFirst needle text = none ↔ ¬needle <:+: text := by
  rw [← contains_iff, contains, Option.isSome_iff_ne_none, ne_eq, not_not]

/-- A template with a name in the place of its first placeholder. -/
inductive Filled (template name : Text) : Text → Prop
  | first {before after : Text} (h : SplitsFirst placeholder template before after) :
      Filled template name (before ++ name ++ after)
  | without (h : ¬placeholder <:+: template) : Filled template name template

theorem fill_filled (template name : Text) : Filled template name (fill template name) := by
  unfold fill replaceFirst
  cases hs : splitFirst placeholder template with
  | none => exact .without (splitFirst_eq_none_iff.mp hs)
  | some sides =>
    obtain ⟨before, after⟩ := sides
    exact .first (splitFirst_splits hs)

namespace Filled

variable {template name other path path' : Text}

theorem of_infix (h : Filled template name path) (hp : placeholder <:+: template) :
    ∃ before after, SplitsFirst placeholder template before after ∧
      path = before ++ name ++ after := by
  cases h with
  | first hs => exact ⟨_, _, hs, rfl⟩
  | without hw => exact absurd hp hw

theorem unique (h : Filled template name path) (h' : Filled template name path') :
    path' = path := by
  cases h with
  | first hs =>
    cases h' with
    | first hs' =>
      obtain ⟨rfl, rfl⟩ := hs.unique hs'
      rfl
    | without hw => exact absurd hs.isInfix hw
  | without hw =>
    cases h' with
    | first hs => exact absurd hs.isInfix hw
    | without => rfl

theorem eq_iff (h : Filled template name path) (h' : Filled template other path')
    (hp : placeholder <:+: template) : path = path' ↔ name = other := by
  obtain ⟨before, after, hs, rfl⟩ := h.of_infix hp
  obtain ⟨before', after', hs', rfl⟩ := h'.of_infix hp
  obtain ⟨rfl, rfl⟩ := hs.unique hs'
  rw [List.append_left_inj, List.append_right_inj]

end Filled

end DirectImports
