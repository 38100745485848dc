import DirectImports.Proofs.Hyphenation
import DirectImports.Proofs.WordsAndLines

/-! Transforms of a name after each other. What small letters are left by one transform stays under
the others, and the hyphens of a name can be told from its characters. -/

namespace DirectImports

/-- A name in which no transform finds anything to change. -/
def HasNoCapitals (name : Text) : Prop :=
  ∀ c ∈ name, c.isUpper = false

theorem hasNoCapitals_lowerCase (name : Text) : HasNoCapitals (lowerCase name) :=
  List.forall_mem_map.mpr fun c _ => c.isUpper_toLower_eq_false

section

variable {name : Text}

theorem HasNoCapitals.lowerCase_eq (h : HasNoCapitals name) : lowerCase name = name :=
  calc lowerCase name = name.map id :=
        List.map_congr_left fun c hc => Char.toLower_eq_of_not_isUpper (by simp [h c hc])
    _ = name := List.map_id name

theorem HasNoCapitals.hyphenate_eq (h : HasNoCapitals name) : hyphenate name = name := by
  cases name with
  | nil => rfl
  | cons c name =>
    have hname := hyphenateAfter_not_upper (List.forall_mem_cons.mp h).2 c []
    rw [List.append_nil] at hname
    rw [hyphenate, hname]
    exact congrArg (c :: ·) (List.append_nil name)

theorem HasNoCapitals.kebabCase_eq (h : HasNoCapitals name) : kebabCase name = name := by
  rw [kebabCase, h.hyphenate_eq, h.lowerCase_eq]

theorem HasNoCapitals.camelCase_eq (h : HasNoCapitals name) : camelCase name = name := by
  cases name with
  | nil => rfl
  | cons c name => rw [camelCase, Char.toLower_eq_of_not_isUpper (by simp [h c (.head _)])]

end

theorem hasNoCapitals_kebabCase (name : Text) : HasNoCapitals (kebabCase name) :=
  hasNoCapitals_lowerCase _

theorem camelCase_camelCase (name : Text) : camelCase (camelCase name) = camelCase name := by
  cases name with
  | nil => rfl
  | cons c name => rw [camelCase, camelCase, Char.toLower_toLower_eq_toLower]

def isHyphen (c : Char) : Bool :=
  c = '-'

/-- A hyphen that is set has a character of the name on both sides. -/
theorem exists_hyphenated (previous : Char) {name : Text}
    (h : ∀ c ∈ previous :: name, isHyphen c = false) :
    ∃ parts, AreFreeOf isHyphen parts ∧ parts.flatten = previous :: name ∧
      previous :: hyphenateAfter previous name = joinWith ['-'] parts := by
  induction name generalizing previous with
  | nil =>
    have hprevious := h previous (.head _)
    have hnone : AreFreeOf isHyphen [] := nofun
    exact ⟨[[previous]], hnone.cons_single hprevious, rfl, rfl⟩
  | cons c name ih =>
    obtain ⟨hprevious, h⟩ := List.forall_mem_cons.mp h
    obtain ⟨parts, hfree, hflat, hjoin⟩ := ih c h
    obtain ⟨part, parts, rfl⟩ : ∃ part later, parts = part :: later := by
      refine List.exists_cons_of_ne_nil ?_
      rintro rfl
      cases hflat
    rw [hyphenateAfter]
    split
    · refine ⟨[previous] :: part :: parts, hfree.cons_single hprevious, ?_, ?_⟩
      · rw [List.flatten_cons, hflat]
        rfl
      · rw [hjoin, joinWith_cons_cons]
        rfl
    · refine ⟨attach previous (part :: parts), hfree.attach hprevious, ?_, ?_⟩
      · rw [flatten_attach, hflat]
      · rw [joinWith_attach, hjoin]

theorem isHyphen_toLower {c : Char} (h : isHyphen c = false) : isHyphen c.toLower = false := by
  by_cases hu : c.isUpper = true
  · have hlower : c.toLower.isLower = true := by simp [Char.isAlpha, hu]
    refine decide_eq_false fun hc => ?_
    rw [hc] at hlower
    cases hlower
  · rwa [Char.toLower_eq_of_not_isUpper hu]

theorem AreFreeOf.map_lowerCase {parts : List Text} (h : AreFreeOf isHyphen parts) :
    AreFreeOf isHyphen (parts.map lowerCase) := by
  refine List.forall_mem_map.mpr fun part hp => ⟨?_, ?_⟩
  · simpa [lowerCase] using (h part hp).1
  · exact List.forall_mem_map.mpr fun c hc => isHyphen_toLower ((h part hp).2 c hc)

theorem exists_kebabParts {name : Text} (h : ∀ c ∈ name, isHyphen c = false) :
    ∃ parts, AreFreeOf isHyphen parts ∧ parts.flatten = lowerCase name ∧
      kebabCase name = joinWith ['-'] parts := by
  cases name with
  | nil => exact ⟨[], nofun, rfl, rfl⟩
  | cons c name =>
    obtain ⟨parts, hfree, hflat, hjoin⟩ := exists_hyphenated c h
    refine ⟨parts.map lowerCase, hfree.map_lowerCase, ?_, ?_⟩
    · rw [← hflat, lowerCase, List.map_flatten]
      rfl
    · rw [kebabCase, hyphenate, hjoin, lowerCase_joinWith]
      rfl

/-- The laws of the transforms after each other. In a name without hyphens only those of its kebab
case tell it from its small letters, and each of them stands between two of these. -/
theorem transforms_compose (name : Text) : ∃ kebab lower camel,
    NameTransform.apply (some .kebabCase) name = some kebab ∧
    NameTransform.apply (some .lowercase) name = some lower ∧
    NameTransform.apply (some .camelCase) name = some camel ∧
    NameTransform.apply (some .kebabCase) kebab = some kebab ∧
    NameTransform.apply (some .lowercase) kebab = some kebab ∧
    NameTransform.apply (some .camelCase) kebab = some kebab ∧
    NameTransform.apply (some .kebabCase) lower = some lower ∧
    NameTransform.apply (some .camelCase) camel = some camel ∧
    ('-' ∉ name → kebab.filter (· ≠ '-') = lower ∧ SeparatorsStandApart isHyphen kebab) := by
  have hkebab := hasNoCapitals_kebabCase name
  have hlower := hasNoCapitals_lowerCase name
  refine ⟨kebabCase name, lowerCase name, camelCase name, rfl, rfl, rfl,
    congrArg some hkebab.kebabCase_eq, congrArg some hkebab.lowerCase_eq,
    congrArg some hkebab.camelCase_eq, congrArg some hlower.kebabCase_eq,
    congrArg some (camelCase_camelCase name), fun h => ?_⟩
  have hnone : ∀ c ∈ name, isHyphen c = false :=
    fun c hc => decide_eq_false fun hhyphen => h (hhyphen ▸ hc)
  obtain ⟨parts, hfree, hflat, hjoin⟩ := exists_kebabParts hnone
  rw [hjoin, ← hflat]
  exact ⟨by simpa [isHyphen] using filter_joinWith hfree rfl, joinWith_standApart '-' hfree⟩

/-- A name with an acronym and with capitals that only small letters of other scripts surround. -/
def foreignName : Text :=
  "GridÀHTTPServerβΓa9Z".toList

theorem foreignName_composes : '-' ∉ foreignName ∧
    kebabCase foreignName = "gridÀhttp-serverβΓa9-z".toList ∧
    (kebabCase foreignName).filter (· ≠ '-') = lowerCase foreignName ∧
    SeparatorsStandApart isHyphen (kebabCase foreignName) := by
  have hnone : '-' ∉ foreignName := by decide +kernel
  obtain ⟨kebab, lower, camel, hkebab, hlower, -, -, -, -, -, -, hhyphens⟩ :=
    transforms_compose foreignName
  obtain rfl := Option.some.inj hkebab
  obtain rfl := Option.some.inj hlower
  exact ⟨hnone, by decide +kernel, hhyphens hnone⟩

end DirectImports
