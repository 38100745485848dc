import Mathlib.Data.Char
import Mathlib.Data.List.Lex
import Mathlib.Data.Prod.Lex
import DirectImports.Proofs.FileTree

/-! The order of paths is the lexicographic one of their components, and collected files are in
it. -/

namespace DirectImports

theorem nil_le_list {α : Type} [LinearOrder α] (list : List α) : [] ≤ list :=
  not_lt.mp (List.not_lt_nil list)

theorem cons_le_cons_list {α : Type} [LinearOrder α] {a b : α} {as bs : List α} :
    a :: as ≤ b :: bs ↔ a < b ∨ a = b ∧ as ≤ bs := by
  rw [← not_lt, ← not_lt, List.cons_lt_cons_iff]
  rcases lt_trichotomy a b with hlt | rfl | hlt
  · simp [hlt, hlt.not_gt, hlt.ne']
  · simp
  · simp [hlt, hlt.not_gt, hlt.ne']

theorem textPrecedes_iff (a b : Text) : textPrecedes a b = true ↔ a ≤ b := by
  induction a generalizing b with
  | nil => simp [textPrecedes, nil_le_list]
  | cons c a ih =>
    cases b with
    | nil => simp [textPrecedes]
    | cons d b =>
      rw [textPrecedes, cons_le_cons_list]
      by_cases hc : c = d
      · subst hc
        simp [ih]
      · have hlt : c.toNat < d.toNat ↔ c < d := Iff.rfl
        simp [hc, hlt]

/-- What components are ordered by. -/
def Component.key (component : Component) : Nat ×ₗ Text :=
  toLex (component.rank, match component with
    | child name => name
    | _ => [])

theorem Component.key_injective : Function.Injective Component.key := by
  intro a b h
  cases a <;> cases b <;> simp_all [key, rank]

theorem Component.precedes_iff (a b : Component) : a.precedes b = true ↔ a.key ≤ b.key := by
  cases a <;> cases b <;> simp [precedes, key, rank, textPrecedes_iff, Prod.Lex.toLex_le_toLex]

theorem componentsPrecede_iff (a b : List Component) :
    componentsPrecede a b = true ↔ a.map Component.key ≤ b.map Component.key := by
  induction a generalizing b with
  | nil => simp [componentsPrecede, nil_le_list]
  | cons first a ih =>
    cases b with
    | nil => simp [componentsPrecede]
    | cons second b =>
      rw [componentsPrecede, List.map_cons, List.map_cons, cons_le_cons_list]
      by_cases hsame : first = second
      · subst hsame
        simp [ih]
      · have hkey : first.key ≠ second.key := fun hk => hsame (Component.key_injective hk)
        rw [if_neg hsame, Component.precedes_iff, le_iff_lt_or_eq]
        simp [hkey]

theorem pathPrecedes_trans (a b c : Text) (hab : pathPrecedes a b = true)
    (hbc : pathPrecedes b c = true) : pathPrecedes a c = true :=
  (componentsPrecede_iff _ _).mpr <|
    ((componentsPrecede_iff _ _).mp hab).trans ((componentsPrecede_iff _ _).mp hbc)

theorem pathPrecedes_total (a b : Text) : (pathPrecedes a b || pathPrecedes b a) = true := by
  rw [Bool.or_eq_true, pathPrecedes, pathPrecedes, componentsPrecede_iff, componentsPrecede_iff]
  exact le_total _ _

theorem collectFiles_sorted {system : FileSystem} {root : Text} {entryGlob : Option Text}
    {files : List Text} (h : collectFiles system root entryGlob = .ok files) :
    files.Pairwise fun a b => pathPrecedes a b = true := by
  obtain ⟨visits, -, h⟩ := except_bind_eq_ok.mp h
  obtain rfl := Except.ok.inj h
  exact List.pairwise_mergeSort pathPrecedes_trans pathPrecedes_total _

end DirectImports
