import DirectImports.Import.Direct
import DirectImports.Proofs.FirstMatch

/-! The direct imports of a declaration. There is one for each named binding, from the path that its
pattern computes: a template and a base name are chosen for the imported name, and the path is the
template with the base name in it. -/

namespace DirectImports

/-- A pattern whose custom functions have an answer for every name. -/
structure BarrelPattern.ReturnsNormally (pattern : BarrelPattern) : Prop where
  transform : ∀ transform, pattern.transformImportName = some (.custom transform) →
    ∀ name, (transform name).isSome = true
  exports : ∀ exports transform, pattern.namedExports = some exports →
    exports.transform = some transform → ∀ name suffix, (transform name suffix).isSome = true

def RuleOptions.ReturnsNormally (options : RuleOptions) : Prop :=
  ∀ pattern ∈ options.patterns, pattern.ReturnsNormally

structure BarrelPattern.HasNoFunctions (pattern : BarrelPattern) : Prop where
  transform : ∀ transform, pattern.transformImportName ≠ some (.custom transform)
  exports : ∀ exports ∈ pattern.namedExports, exports.transform = none

def RuleOptions.HasNoFunctions (options : RuleOptions) : Prop :=
  ∀ pattern ∈ options.patterns, pattern.HasNoFunctions

theorem BarrelPattern.HasNoFunctions.returnsNormally {pattern : BarrelPattern}
    (h : pattern.HasNoFunctions) : pattern.ReturnsNormally := by
  refine ⟨fun transform ht => ?_, fun exports transform he ht => ?_⟩
  · exact absurd ht (h.transform transform)
  · rw [h.exports exports he] at ht
    cases ht

theorem RuleOptions.HasNoFunctions.returnsNormally {options : RuleOptions}
    (h : options.HasNoFunctions) : options.ReturnsNormally :=
  fun pattern hp => (h pattern hp).returnsNormally

/-- The path of the module that an imported name is moved to. -/
def BarrelPattern.directPath (pattern : BarrelPattern) (name : Text) : Option Text :=
  match pattern.namedMatch? name with
  | some (exports, suffix) => pattern.namedPath exports name suffix
  | none => pattern.defaultPath name

def bracedName (name : Text) : Text :=
  ['\x7b', ' '] ++ name ++ [' ', '\x7d']

def directClause (pattern : BarrelPattern) (binding : NamedBinding) : Text :=
  if (pattern.namedMatch? binding.importedName).isSome then bracedName binding.localName
  else binding.localName

theorem directStatement_eq (pattern : BarrelPattern) (binding : NamedBinding) :
    directStatement pattern binding =
      (pattern.directPath binding.importedName).map
        (importStatement binding.isTypeOnly (directClause pattern binding)) := by
  unfold directStatement BarrelPattern.directPath directClause
  cases pattern.namedMatch? binding.importedName <;> rfl

theorem NameTransform.apply_isSome {pattern : BarrelPattern} (h : pattern.ReturnsNormally)
    (name : Text) : (NameTransform.apply pattern.transformImportName name).isSome = true := by
  cases ht : pattern.transformImportName with
  | none => rfl
  | some transform =>
    cases transform with
    | custom transform => exact h.transform transform ht name
    | _ => rfl

theorem baseName_append (base suffix : Text) :
    BarrelPattern.baseName (base ++ suffix) suffix = some base := by
  have hle : byteLength suffix ≤ byteLength (base ++ suffix) := by
    rw [byteLength_append]
    omega
  have hsub : byteLength (base ++ suffix) - byteLength suffix = byteLength base := by
    rw [byteLength_append]
    omega
  rw [BarrelPattern.baseName, if_pos hle, hsub, cutAt_append]
  rfl

/-- A name that stays named: of the suffixes it ends with the first one, and what stands before. -/
structure BarrelPattern.HasSuffix (pattern : BarrelPattern) (exports : NamedExports)
    (name base suffix : Text) : Prop where
  configured : pattern.namedExports = some exports
  first : IsFirst (fun ending => ending <:+ name) exports.suffixes suffix
  name_eq : name = base ++ suffix

def BarrelPattern.HasNoSuffix (pattern : BarrelPattern) (name : Text) : Prop :=
  ∀ exports ∈ pattern.namedExports, ∀ suffix ∈ exports.suffixes, ¬suffix <:+ name

section

variable {pattern : BarrelPattern} {exports : NamedExports} {name base suffix : Text}

theorem hasSuffix_or_hasNoSuffix (pattern : BarrelPattern) (name : Text) :
    (∃ exports base suffix, pattern.HasSuffix exports name base suffix) ∨
      pattern.HasNoSuffix name := by
  cases hm : pattern.namedMatch? name with
  | none => exact .inr (namedMatch?_eq_none_iff.mp hm)
  | some found =>
    obtain ⟨exports, suffix⟩ := found
    obtain ⟨he, hs⟩ := namedMatch?_eq_some_iff.mp hm
    have hfirst := suffix?_eq_some_iff.mp hs
    obtain ⟨base, hname⟩ := hfirst.has
    exact .inl ⟨exports, base, suffix, he, hfirst, hname.symm⟩

namespace BarrelPattern.HasSuffix

theorem namedMatch?_eq (h : pattern.HasSuffix exports name base suffix) :
    pattern.namedMatch? name = some (exports, suffix) :=
  namedMatch?_eq_some_iff.mpr ⟨h.configured, suffix?_eq_some_iff.mpr h.first⟩

theorem directPath_stripped (h : pattern.HasSuffix exports name base suffix)
    (hf : exports.transform = none) :
    pattern.directPath name = (NameTransform.apply pattern.transformImportName base).map
      (fill (exports.customPattern.getD pattern.transformPattern)) := by
  have hbase : baseName name suffix = some base := by
    rw [h.name_eq]
    exact baseName_append base suffix
  rw [directPath, h.namedMatch?_eq]
  simp only [namedPath, hf, hbase, Option.bind_eq_bind, Option.bind_some]
  cases NameTransform.apply pattern.transformImportName base <;> rfl

theorem directPath_called {transform : Text → Text → Option Text}
    (h : pattern.HasSuffix exports name base suffix) (hf : exports.transform = some transform) :
    pattern.directPath name = (transform name suffix).map
      (fill (exports.customPattern.getD pattern.transformPattern)) := by
  rw [directPath, h.namedMatch?_eq]
  simp only [namedPath, hf]
  cases transform name suffix <;> rfl

end BarrelPattern.HasSuffix

theorem BarrelPattern.HasNoSuffix.directPath_eq (h : pattern.HasNoSuffix name) :
    pattern.directPath name = pattern.defaultPath name := by
  rw [directPath, namedMatch?_eq_none_iff.mpr h]

/-- The template and the base name for a name. Custom functions give the answers that they give. -/
inductive BarrelPattern.Routes (pattern : BarrelPattern) (name : Text) : Text → Text → Prop
  | whole {base : Text} (hs : pattern.HasNoSuffix name)
      (hb : NameTransform.apply pattern.transformImportName name = some base) :
      Routes pattern name pattern.transformPattern base
  | stripped {exports : NamedExports} {front suffix base : Text}
      (hs : pattern.HasSuffix exports name front suffix) (hf : exports.transform = none)
      (hb : NameTransform.apply pattern.transformImportName front = some base) :
      Routes pattern name (exports.customPattern.getD pattern.transformPattern) base
  | called {exports : NamedExports} {front suffix base : Text}
      {transform : Text → Text → Option Text}
      (hs : pattern.HasSuffix exports name front suffix) (hf : exports.transform = some transform)
      (hb : transform name suffix = some base) :
      Routes pattern name (exports.customPattern.getD pattern.transformPattern) base

/-- The template is known before the base name is, so that a path is missing only where a custom
function has no answer. -/
theorem exists_template (pattern : BarrelPattern) (name : Text) :
    ∃ (template : Text) (base? : Option Text),
      pattern.directPath name = base?.map (fill template) ∧
      (∀ base ∈ base?, pattern.Routes name template base) ∧
      (pattern.ReturnsNormally → base?.isSome = true) := by
  rcases hasSuffix_or_hasNoSuffix pattern name with ⟨exports, front, suffix, hs⟩ | hs
  · cases hf : exports.transform with
    | none =>
      exact ⟨_, _, hs.directPath_stripped hf, fun base hb => .stripped hs hf hb,
        fun hr => NameTransform.apply_isSome hr front⟩
    | some transform =>
      exact ⟨_, _, hs.directPath_called hf, fun base hb => .called hs hf hb,
        fun hr => hr.exports exports transform hs.configured hf name suffix⟩
  · exact ⟨_, _, hs.directPath_eq, fun base hb => .whole hs hb,
      fun hr => NameTransform.apply_isSome hr name⟩

theorem exists_routes (hr : pattern.ReturnsNormally) (name : Text) :
    ∃ template base, pattern.Routes name template base := by
  obtain ⟨template, base?, -, hroutes, hsome⟩ := exists_template pattern name
  obtain ⟨base, hb⟩ := Option.isSome_iff_exists.mp (hsome hr)
  exact ⟨template, base, hroutes base hb⟩

theorem exists_routes_of_directPath {path : Text} (h : pattern.directPath name = some path) :
    ∃ template base, pattern.Routes name template base ∧ path = fill template base := by
  obtain ⟨template, base?, hpath, hroutes, -⟩ := exists_template pattern name
  rw [hpath] at h
  obtain ⟨base, hb, rfl⟩ := Option.map_eq_some_iff.mp h
  exact ⟨template, base, hroutes base hb, rfl⟩

theorem BarrelPattern.Routes.directPath_eq {template : Text}
    (h : pattern.Routes name template base) :
    pattern.directPath name = some (fill template base) := by
  cases h with
  | whole hs hb => rw [hs.directPath_eq, defaultPath, hb, Option.map_some]
  | stripped hs hf hb => rw [hs.directPath_stripped hf, hb, Option.map_some]
  | called hs hf hb => rw [hs.directPath_called hf, hb, Option.map_some]

end

theorem directPath_isSome {pattern : BarrelPattern} (h : pattern.ReturnsNormally)
    (name : Text) : (pattern.directPath name).isSome = true := by
  obtain ⟨template, base, hroutes⟩ := exists_routes h name
  rw [hroutes.directPath_eq, Option.isSome_some]

theorem mapM_isSome {α β : Type} {f : α → Option β} (xs : List α)
    (h : ∀ x ∈ xs, (f x).isSome = true) : (xs.mapM f).isSome = true := by
  induction xs with
  | nil => rfl
  | cons x xs ih =>
    obtain ⟨y, hy⟩ := Option.isSome_iff_exists.mp (h x (.head _))
    obtain ⟨ys, hys⟩ := Option.isSome_iff_exists.mp (ih fun x hx => h x (.tail _ hx))
    simp [List.mapM_cons, hy, hys]

theorem mem_of_mapM {α β : Type} {f : α → Option β} {xs : List α} {ys : List β}
    (h : xs.mapM f = some ys) : ∀ y ∈ ys, ∃ x ∈ xs, f x = some y := by
  induction xs generalizing ys with
  | nil =>
    obtain rfl : [] = ys := Option.some.inj h
    simp
  | cons x xs ih =>
    simp only [List.mapM_cons, Option.bind_eq_bind, Option.bind_eq_some_iff] at h
    obtain ⟨y, hy, later, hl, h⟩ := h
    obtain rfl := Option.some.inj h
    intro z hz
    rcases List.mem_cons.mp hz with rfl | hz
    · exact ⟨x, .head _, hy⟩
    · obtain ⟨w, hw, hf⟩ := ih hl z hz
      exact ⟨w, .tail _ hw, hf⟩

theorem length_of_mapM {α β : Type} {f : α → Option β} {xs : List α} {ys : List β}
    (h : xs.mapM f = some ys) : ys.length = xs.length := by
  induction xs generalizing ys with
  | nil =>
    obtain rfl : [] = ys := Option.some.inj h
    rfl
  | cons x xs ih =>
    simp only [List.mapM_cons, Option.bind_eq_bind, Option.bind_eq_some_iff] at h
    obtain ⟨y, -, later, hl, h⟩ := h
    obtain rfl := Option.some.inj h
    exact congrArg Nat.succ (ih hl)

theorem directStatements_isSome {pattern : BarrelPattern} (h : pattern.ReturnsNormally)
    (declaration : ImportDeclaration) :
    (declaration.directStatements pattern).isSome = true := by
  have hall := mapM_isSome (f := directStatement pattern) declaration.namedBindings
    fun binding _ => by
      rw [directStatement_eq, Option.isSome_map]
      exact directPath_isSome h binding.importedName
  obtain ⟨direct, hd⟩ := Option.isSome_iff_exists.mp hall
  simp [ImportDeclaration.directStatements, hd]

theorem namedBindings_ne_nil {declaration : ImportDeclaration}
    (h : declaration.specifiers.any Specifier.isNamed = true) :
    declaration.namedBindings ≠ [] := by
  obtain ⟨specifier, hs, hn⟩ := List.any_eq_true.mp h
  cases specifier with
  | named importedName localName isType =>
    have hb : (⟨importedName, localName, declaration.isTypeOnly || isType⟩ : NamedBinding) ∈
        declaration.namedBindings :=
      List.mem_filterMap.mpr ⟨_, hs, rfl⟩
    exact List.ne_nil_of_mem hb
  | byDefault | entire => simp [Specifier.isNamed] at hn

theorem replacement_eq {declaration : ImportDeclaration} (pattern : BarrelPattern)
    (h : declaration.specifiers.any Specifier.isNamed = true) :
    declaration.replacement pattern =
      (declaration.directStatements pattern).map fun statements =>
        some (joinWith ['\n'] statements) := by
  have hn : declaration.namedBindings.isEmpty = false := by
    simp [namedBindings_ne_nil h]
  simp [ImportDeclaration.replacement, hn]

theorem directStatements_ne_nil {declaration : ImportDeclaration} {pattern : BarrelPattern}
    {texts : List Text} (hn : declaration.specifiers.any Specifier.isNamed = true)
    (h : declaration.directStatements pattern = some texts) : texts ≠ [] := by
  obtain ⟨direct, hm, h⟩ := Option.bind_eq_some_iff.mp h
  obtain rfl := Option.some.inj h
  have hl := length_of_mapM hm
  have hb := List.length_pos_iff.mpr (namedBindings_ne_nil hn)
  intro he
  rw [(List.append_eq_nil_iff.mp he).2, List.length_nil] at hl
  omega

theorem mem_directStatements {declaration : ImportDeclaration} {pattern : BarrelPattern}
    {texts : List Text} (h : declaration.directStatements pattern = some texts) :
    ∀ text ∈ texts, ∃ isTypeOnly clause path, text = importStatement isTypeOnly clause path := by
  obtain ⟨direct, hm, h⟩ := Option.bind_eq_some_iff.mp h
  obtain rfl := Option.some.inj h
  intro text ht
  rcases List.mem_append.mp ht with ht | ht
  · unfold ImportDeclaration.residual? at ht
    split at ht
    · simp at ht
    · obtain rfl := List.mem_singleton.mp ht
      exact ⟨_, _, _, rfl⟩
  · obtain ⟨binding, -, hb⟩ := mem_of_mapM hm text ht
    rw [directStatement_eq] at hb
    obtain ⟨path, -, rfl⟩ := Option.map_eq_some_iff.mp hb
    exact ⟨_, _, _, rfl⟩

/-- The replacement of a declaration begins with `import`. -/
theorem joined_begins {declaration : ImportDeclaration} {pattern : BarrelPattern}
    {texts : List Text} (hn : declaration.specifiers.any Specifier.isNamed = true)
    (h : declaration.directStatements pattern = some texts) :
    ∃ later, joinWith ['\n'] texts = "import".toList ++ ' ' :: later := by
  have hall := mem_directStatements h
  have hbegin (isTypeOnly : Bool) (clause path rest : Text) : ∃ later,
      importStatement isTypeOnly clause path ++ rest = "import".toList ++ ' ' :: later := by
    unfold importStatement
    exact ⟨_, rfl⟩
  cases texts with
  | nil => exact absurd rfl (directStatements_ne_nil hn h)
  | cons text texts =>
    obtain ⟨isTypeOnly, clause, path, rfl⟩ := hall text (.head _)
    cases texts with
    | nil =>
      obtain ⟨later, hl⟩ := hbegin isTypeOnly clause path []
      exact ⟨later, by simpa [joinWith] using hl⟩
    | cons next texts =>
      rw [joinWith_cons_cons]
      exact hbegin isTypeOnly clause path _

end DirectImports
