import DirectImports.Ignore.Glob
import DirectImports.Proofs.PathOrder

/-! The order of texts by their bytes. UTF-8 keeps the order of code points, so that texts in the
order of their characters are in the order of their bytes as well. Paths are ordered by their
components, and those that are names by their bytes. -/

namespace DirectImports

theorem cons_ofNat_lt_cons {m n : Nat} {s t : List UInt8} (hn : n < 256) (hle : m ≤ n)
    (h : m = n → s < t) : UInt8.ofNat m :: s < UInt8.ofNat n :: t := by
  rw [List.cons_lt_cons_iff]
  rcases Nat.lt_or_eq_of_le hle with hlt | rfl
  · left
    rwa [UInt8.lt_iff_toNat_lt, UInt8.toNat_ofNat_of_lt' (hlt.trans hn),
      UInt8.toNat_ofNat_of_lt' hn]
  · exact .inr ⟨rfl, h rfl⟩

/-- The bytes of two different characters part before either of them ends. -/
theorem utf8EncodeChar_append_lt {c d : Char} (h : c < d) (s t : List UInt8) :
    String.utf8EncodeChar c ++ s < String.utf8EncodeChar d ++ t := by
  have hlt : c.val.toNat < d.val.toNat := h
  have hmax : d.val.toNat < 1114112 := by
    rcases d.valid with hd | ⟨-, hd⟩
    · exact Nat.lt_trans hd (by decide)
    · exact hd
  unfold String.utf8EncodeChar
  generalize c.val.toNat = m at *
  generalize d.val.toNat = n at *
  simp only
  -- Characters of different lengths part at the first byte. Those of one length have the digits of
  -- their codes to the base 64 as bytes, which are not all the same.
  split_ifs
  all_goals
    simp only [List.cons_append, List.nil_append]
    repeat (first | omega | refine cons_ofNat_lt_cons (by omega) (by omega) fun _ => ?_)

theorem bytesOf_cons (c : Char) (text : Text) :
    bytesOf (c :: text) = String.utf8EncodeChar c ++ bytesOf text :=
  rfl

theorem bytesOf_lt {a b : Text} (h : a < b) : bytesOf a < bytesOf b := by
  induction a generalizing b with
  | nil =>
    cases b with
    | nil => exact absurd h (List.not_lt_nil _)
    | cons d b =>
      obtain ⟨byte, bytes, hd⟩ := List.exists_cons_of_ne_nil (String.utf8EncodeChar_ne_nil (c := d))
      rw [bytesOf_cons, hd]
      exact List.nil_lt_cons _ _
  | cons c a ih =>
    cases b with
    | nil => exact absurd h (List.not_lt_nil _)
    | cons d b =>
      rw [bytesOf_cons, bytesOf_cons]
      rcases List.cons_lt_cons_iff.mp h with hcd | ⟨rfl, hab⟩
      · exact utf8EncodeChar_append_lt hcd _ _
      · exact List.append_left_lt (ih hab)

/-- The order of two texts is that of their bytes. -/
theorem bytesOf_lt_iff {a b : Text} : bytesOf a < bytesOf b ↔ a < b := by
  refine ⟨fun h => ?_, bytesOf_lt⟩
  rcases lt_trichotomy a b with hab | rfl | hba
  · exact hab
  · exact absurd h (List.lt_irrefl _)
  · exact absurd h (List.lt_asymm (bytesOf_lt hba))

/-- Names come in the order of their bytes, behind components of other kinds. -/
@[mk_iff isBefore_cases]
inductive Component.IsBefore : Component → Component → Prop
  | kind {a b : Component} (h : a.rank < b.rank) : IsBefore a b
  | name {a b : Text} (h : bytesOf a < bytesOf b) : IsBefore (.child a) (.child b)

theorem Component.isBefore_iff {a b : Component} :
    a.IsBefore b ↔ a.precedes b = true ∧ a ≠ b := by
  rw [isBefore_cases]
  cases a <;> cases b <;>
    simp [precedes, rank, bytesOf_lt_iff, textPrecedes_iff, lt_iff_le_and_ne]

theorem Component.IsBefore.asymm {a b : Component} (hab : a.IsBefore b) : ¬b.IsBefore a := by
  intro hba
  obtain ⟨hle, hne⟩ := isBefore_iff.mp hab
  have hge := (isBefore_iff.mp hba).1
  rw [precedes_iff] at hle hge
  exact hne (key_injective (le_antisymm hle hge))

/-- One path comes before another, component by component. -/
def PathIsBefore (a b : Text) : Prop :=
  List.Lex Component.IsBefore (components a) (components b)

theorem componentsLex_iff {a b : List Component} :
    List.Lex Component.IsBefore a b ↔ componentsPrecede a b = true ∧ a ≠ b := by
  induction a generalizing b with
  | nil => cases b <;> simp [componentsPrecede]
  | cons first a ih =>
    cases b with
    | nil => simp [componentsPrecede]
    | cons second b =>
      rw [List.cons_lex_cons_iff, componentsPrecede, Component.isBefore_iff, ih]
      by_cases hsame : first = second
      · subst hsame
        simp
      · simp [hsame]

theorem pathIsBefore_iff {a b : Text} :
    PathIsBefore a b ↔ pathPrecedes a b = true ∧ components a ≠ components b :=
  componentsLex_iff

theorem PathIsBefore.asymm {a b : Text} (h : PathIsBefore a b) : ¬PathIsBefore b a :=
  List.lex_asymm Component.IsBefore.asymm h

end DirectImports
