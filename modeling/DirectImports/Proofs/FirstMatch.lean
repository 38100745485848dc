import DirectImports.Pattern

/-! The choice of a pattern and of a suffix. In both lists the first that matches is taken, so that
what matches no more than an earlier one does is never taken. -/

namespace DirectImports

/-- The first of a list that has a property. -/
def IsFirst {α : Type} (p : α → Prop) (xs : List α) (x : α) : Prop :=
  ∃ before after, xs = before ++ x :: after ∧ p x ∧ ∀ y ∈ before, ¬p y

theorem IsFirst.mem {α : Type} {p : α → Prop} {xs : List α} {x : α} (h : IsFirst p xs x) :
    x ∈ xs := by
  obtain ⟨before, after, rfl, -, -⟩ := h
  exact List.mem_append_right _ (.head _)

theorem IsFirst.has {α : Type} {p : α → Prop} {xs : List α} {x : α} (h : IsFirst p xs x) :
    p x := by
  obtain ⟨-, -, -, hx, -⟩ := h
  exact hx

theorem find?_eq_some_iff_isFirst {α : Type} {p : α → Bool} {xs : List α} {x : α} :
    xs.find? p = some x ↔ IsFirst (fun y => p y = true) xs x := by
  rw [List.find?_eq_some_iff_append]
  constructor
  · rintro ⟨hx, before, after, rfl, hbefore⟩
    exact ⟨before, after, rfl, hx, fun y hy => by simpa using hbefore y hy⟩
  · rintro ⟨before, after, rfl, hx, hbefore⟩
    exact ⟨hx, before, after, rfl, fun y hy => by simpa using hbefore y hy⟩

theorem match?_eq_some_iff {options : RuleOptions} {source : Text} {pattern : BarrelPattern} :
    options.match? source = some pattern ↔
      IsFirst (fun other => other.barrel = source) options.patterns pattern := by
  rw [RuleOptions.match?, find?_eq_some_iff_isFirst]
  simp only [beq_iff_eq]

theorem suffix?_eq_some_iff {exports : NamedExports} {name suffix : Text} :
    exports.suffix? name = some suffix ↔
      IsFirst (fun ending => ending <:+ name) exports.suffixes suffix := by
  rw [NamedExports.suffix?, find?_eq_some_iff_isFirst]
  simp only [List.isSuffixOf_iff_suffix]

theorem suffix?_eq_none_iff {exports : NamedExports} {name : Text} :
    exports.suffix? name = none ↔ ∀ suffix ∈ exports.suffixes, ¬suffix <:+ name := by
  rw [NamedExports.suffix?, List.find?_eq_none]
  simp only [List.isSuffixOf_iff_suffix]

theorem namedMatch?_eq_some_iff {pattern : BarrelPattern} {exports : NamedExports}
    {name suffix : Text} :
    pattern.namedMatch? name = some (exports, suffix) ↔
      pattern.namedExports = some exports ∧ exports.suffix? name = some suffix := by
  constructor
  · intro h
    obtain ⟨found, he, h⟩ := Option.bind_eq_some_iff.mp h
    obtain ⟨ending, hs, h⟩ := Option.bind_eq_some_iff.mp h
    obtain ⟨rfl, rfl⟩ := Prod.mk.inj (Option.some.inj h)
    exact ⟨he, hs⟩
  · rintro ⟨he, hs⟩
    simp [BarrelPattern.namedMatch?, he, hs]

theorem namedMatch?_eq_none_iff {pattern : BarrelPattern} {name : Text} :
    pattern.namedMatch? name = none ↔
      ∀ exports ∈ pattern.namedExports, ∀ suffix ∈ exports.suffixes, ¬suffix <:+ name := by
  simp only [← suffix?_eq_none_iff]
  cases he : pattern.namedExports with
  | none => simp [BarrelPattern.namedMatch?, he]
  | some exports =>
    cases hs : exports.suffix? name with
    | none => simp [BarrelPattern.namedMatch?, he, hs]
    | some suffix => simp [BarrelPattern.namedMatch?, he, hs]

/-- A pattern behind another one of its barrel is never taken. -/
theorem match?_without {before after : List BarrelPattern} {pattern : BarrelPattern}
    (h : ∃ earlier ∈ before, earlier.barrel = pattern.barrel) (source : Text) :
    RuleOptions.match? ⟨before ++ after⟩ source =
      RuleOptions.match? ⟨before ++ pattern :: after⟩ source := by
  unfold RuleOptions.match?
  rw [List.find?_append, List.find?_append]
  by_cases hs : pattern.barrel = source
  · obtain ⟨earlier, hm, he⟩ := h
    have hsome : (before.find? fun other => other.barrel == source).isSome = true :=
      List.find?_isSome.mpr ⟨earlier, hm, by simp [he, hs]⟩
    obtain ⟨found, hfound⟩ := Option.isSome_iff_exists.mp hsome
    rw [hfound, Option.some_or, Option.some_or]
  · rw [List.find?_cons_of_neg (by simpa using hs)]

theorem match?_exchanged {before after : List BarrelPattern} {a b : BarrelPattern}
    (h : a.barrel ≠ b.barrel) (source : Text) :
    RuleOptions.match? ⟨before ++ b :: a :: after⟩ source =
      RuleOptions.match? ⟨before ++ a :: b :: after⟩ source := by
  unfold RuleOptions.match?
  rw [List.find?_append, List.find?_append]
  by_cases ha : a.barrel = source
  · have hb : b.barrel ≠ source := fun hb => h (ha.trans hb.symm)
    rw [List.find?_cons_of_neg (by simpa using hb), List.find?_cons_of_pos (by simpa using ha),
      List.find?_cons_of_pos (by simpa using ha)]
  · by_cases hb : b.barrel = source
    · rw [List.find?_cons_of_pos (by simpa using hb), List.find?_cons_of_neg (by simpa using ha),
        List.find?_cons_of_pos (by simpa using hb)]
    · rw [List.find?_cons_of_neg (by simpa using hb), List.find?_cons_of_neg (by simpa using ha),
        List.find?_cons_of_neg (by simpa using ha), List.find?_cons_of_neg (by simpa using hb)]

end DirectImports
