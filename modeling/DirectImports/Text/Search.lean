import DirectImports.Text.Basic

/-! Finding one text inside another. -/

namespace DirectImports

/-- What stands before and after the first occurrence of `needle`. -/
def splitFirst (needle : Text) : Text → Option (Text × Text)
  | [] => if needle.isEmpty then some ([], []) else none
  | c :: text =>
    if needle.isPrefixOf (c :: text) then some ([], (c :: text).drop needle.length)
    else (splitFirst needle text).map fun (before, after) => (c :: before, after)

def contains (needle text : Text) : Bool :=
  (splitFirst needle text).isSome

/-- Puts `replacement` in place of the first occurrence of `needle`. -/
def replaceFirst (needle replacement text : Text) : Text :=
  match splitFirst needle text with
  | some (before, after) => before ++ replacement ++ after
  | none => text

theorem splitFirst_eq {needle text before after : Text}
    (h : splitFirst needle text = some (before, after)) : text = before ++ needle ++ after := by
  induction text generalizing before with
  | nil =>
    simp only [splitFirst] at h
    split at h
    · simp_all
    · simp at h
  | cons c text ih =>
    simp only [splitFirst] at h
    split at h
    · rename_i hp
      simp only [Option.some.injEq, Prod.mk.injEq] at h
      obtain ⟨rfl, rfl⟩ := h
      obtain ⟨rest, hrest⟩ := List.isPrefixOf_iff_prefix.mp hp
      rw [← hrest]
      simp
    · cases hs : splitFirst needle text with
      | none => simp [hs] at h
      | some pair =>
        obtain ⟨b, a⟩ := pair
        simp only [hs, Option.map_some, Option.some.injEq, Prod.mk.injEq] at h
        obtain ⟨rfl, rfl⟩ := h
        simpa using ih hs

end DirectImports
