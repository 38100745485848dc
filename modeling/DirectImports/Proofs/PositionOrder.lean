import DirectImports.Proofs.Boundary
import DirectImports.Text.Position

/-! The order of positions: line by line, and within a line column by column. A later offset has a
later position. -/

namespace DirectImports

def Position.IsBefore (a b : Position) : Prop :=
  a.line < b.line ∨ (a.line = b.line ∧ a.column < b.column)

theorem Position.isBefore_advance (position : Position) (c : Char) :
    position.IsBefore (position.advance c) := by
  by_cases hc : c = '\n'
  · rw [advance, if_pos hc]
    exact .inl (Nat.lt_succ_self _)
  · rw [advance, if_neg hc]
    exact .inr ⟨rfl, Nat.lt_succ_self _⟩

theorem Position.IsBefore.trans {a b c : Position} (hab : a.IsBefore b) (hbc : b.IsBefore c) :
    a.IsBefore c := by
  unfold IsBefore at hab hbc ⊢
  omega

theorem Position.isBefore_foldl {text : Text} (h : text ≠ []) (position : Position) :
    position.IsBefore (text.foldl advance position) := by
  induction text generalizing position with
  | nil => exact absurd rfl h
  | cons c text ih =>
    have hfirst := position.isBefore_advance c
    by_cases ht : text = []
    · subst ht
      exact hfirst
    · exact hfirst.trans (ih ht _)

theorem positionAt_eq_some {text : Text} {offset : Nat} {position : Position}
    (h : positionAt text offset = some position) :
    ∃ before after, text = before ++ after ∧ byteLength before = offset ∧
      position = before.foldl Position.advance ⟨1, 1⟩ := by
  obtain ⟨⟨before, after⟩, hcut, rfl⟩ := Option.map_eq_some_iff.mp h
  obtain ⟨htext, hoffset⟩ := eq_append_of_cutAt hcut
  exact ⟨before, after, htext, hoffset, rfl⟩

theorem positionAt_isBefore {text : Text} {a b : Nat} {p q : Position} (h : a < b)
    (hp : positionAt text a = some p) (hq : positionAt text b = some q) : p.IsBefore q := by
  obtain ⟨front, rest, hfront, ha, rfl⟩ := positionAt_eq_some hp
  obtain ⟨before, after, hbefore, hb, rfl⟩ := positionAt_eq_some hq
  have hle : byteLength front ≤ byteLength before := by omega
  obtain ⟨gap, rfl, -⟩ := exists_append_of_byteLength_le (hfront.symm.trans hbefore) hle
  have hgap : gap ≠ [] := by
    rintro rfl
    rw [List.append_nil] at hb
    omega
  rw [List.foldl_append]
  exact Position.isBefore_foldl hgap _

end DirectImports
