import DirectImports.Options.Reader
import DirectImports.Proofs.RecordWriting

/-! Rule options as JSON values, and that there is a text for all options without functions. -/

namespace DirectImports

def TextTree (text : Text) (tree : JsonTree) : Prop :=
  tree = .string text

def transformTokens : List Text :=
  ["lowercase".toList, "kebab-case".toList, "camelCase".toList]

/-- A transform and its token. A token of another transform stands for no unrecognized one. -/
inductive TransformTree : NameTransform → JsonTree → Prop
  | lowercase : TransformTree .lowercase (.string "lowercase".toList)
  | kebabCase : TransformTree .kebabCase (.string "kebab-case".toList)
  | camelCase : TransformTree .camelCase (.string "camelCase".toList)
  | unrecognized {token : Text} (h : token ∉ transformTokens) :
      TransformTree (.unrecognized token) (.string token)

/-- Named exports with a function for their names cannot be written. -/
def NamedExports.writing (exports : NamedExports) : RecordWriting where
  names := ["suffixes", "customPattern"]
  Has
    | "suffixes" => ListTree TextTree exports.suffixes
    | "customPattern" => OptionalTree TextTree exports.customPattern
    | _ => fun _ => False
  MayLack name := name = "customPattern" ∧ exports.customPattern = none

structure NamedExportsTree (exports : NamedExports) (tree : JsonTree) : Prop where
  transform : exports.transform = none
  allows : exports.writing.Allows tree

def BarrelPattern.writing (pattern : BarrelPattern) : RecordWriting where
  names := ["barrel", "transformPattern", "transformImportName", "namedExports"]
  Has
    | "barrel" => TextTree pattern.barrel
    | "transformPattern" => TextTree pattern.transformPattern
    | "transformImportName" => OptionalTree TransformTree pattern.transformImportName
    | "namedExports" => OptionalTree NamedExportsTree pattern.namedExports
    | _ => fun _ => False
  MayLack name := (name = "transformImportName" ∧ pattern.transformImportName = none) ∨
    (name = "namedExports" ∧ pattern.namedExports = none)

def PatternTree (pattern : BarrelPattern) (tree : JsonTree) : Prop :=
  pattern.writing.Allows tree

def RuleOptions.writing (options : RuleOptions) : RecordWriting where
  names := ["patterns"]
  Has
    | "patterns" => ListTree PatternTree options.patterns
    | _ => fun _ => False
  MayLack _ := False

/-- Options with a pattern, and what they may be written as. -/
structure OptionsTree (options : RuleOptions) (tree : JsonTree) : Prop where
  patterns : options.patterns ≠ []
  allows : options.writing.Allows tree

theorem hexValue?_digitChar : ∀ d < 16, hexValue? (Nat.digitChar d) = some d := by
  decide

theorem exists_fourDigits {n : Nat} (h : n < 0x100) : ∃ digits, FourDigits n digits := by
  have hhigh : hexValue? (Nat.digitChar (n / 16)) = some (n / 16) :=
    hexValue?_digitChar _ (by omega)
  have hlow : hexValue? (Nat.digitChar (n % 16)) = some (n % 16) :=
    hexValue?_digitChar _ (by omega)
  have hzero : hexValue? '0' = some 0 := rfl
  have hdigits := FourDigits.digits hzero hzero hhigh hlow
  have hn : ((0 * 16 + 0) * 16 + n / 16) * 16 + n % 16 = n := by omega
  rw [hn] at hdigits
  exact ⟨_, hdigits⟩

theorem exists_stringText (text : Text) : ∃ written, StringText text written := by
  induction text with
  | nil => exact ⟨[], .nil⟩
  | cons c text ih =>
    obtain ⟨written, h⟩ := ih
    by_cases hq : c = '"'
    · subst hq
      exact ⟨_, .escape (.letter (.head _)) h⟩
    by_cases hb : c = '\\'
    · subst hb
      exact ⟨_, .escape (.letter (.tail _ (.head _))) h⟩
    by_cases hc : c.toNat < 0x20
    · obtain ⟨digits, hdigits⟩ := exists_fourDigits (Nat.lt_trans hc (by decide : 0x20 < 0x100))
      exact ⟨_, .escape (.code hdigits) h⟩
    · exact ⟨_, .plain hq hb (Nat.le_of_not_lt hc) h⟩

/-- There is a text for a value. -/
def CanBeWritten {α : Type} (means : α → JsonTree → Prop) (a : α) : Prop :=
  ∃ tree text, means a tree ∧ tree.IsWritten text

theorem canBeWritten_text (text : Text) : CanBeWritten TextTree text := by
  obtain ⟨written, h⟩ := exists_stringText text
  exact ⟨_, _, rfl, .string h⟩

theorem CanBeWritten.optional {α : Type} {means : α → JsonTree → Prop} {a : Option α}
    (h : ∀ b, a = some b → CanBeWritten means b) : CanBeWritten (OptionalTree means) a := by
  cases a with
  | none => exact ⟨.null, _, .none, .null⟩
  | some b =>
    obtain ⟨tree, text, hmeans, hw⟩ := h b rfl
    exact ⟨tree, text, .some hmeans, hw⟩

theorem exists_itemsText {values : List JsonTree} (h : ∀ value ∈ values, ∃ text, value.IsWritten text)
    (isFirst : Bool) : ∃ text, ItemsText JsonTree.IsWritten isFirst values text := by
  induction values generalizing isFirst with
  | nil => exact ⟨[], .nil isBlank_nil⟩
  | cons value values ih =>
    obtain ⟨⟨text, hw⟩, hlater⟩ := List.forall_mem_cons.mp h
    obtain ⟨rest, hrest⟩ := ih hlater false
    cases isFirst with
    | true => exact ⟨_, .first isBlank_nil hw hrest⟩
    | false => exact ⟨_, .next isBlank_nil isBlank_nil hw hrest⟩

theorem CanBeWritten.list {α : Type} {means : α → JsonTree → Prop} {as : List α}
    (h : ∀ a ∈ as, CanBeWritten means a) : CanBeWritten (ListTree means) as := by
  have hvalues : ∃ values, List.Forall₂ means as values ∧
      ∀ value ∈ values, ∃ text, value.IsWritten text := by
    induction as with
    | nil => exact ⟨[], .nil, nofun⟩
    | cons a as ih =>
      obtain ⟨⟨tree, text, hmeans, hw⟩, hlater⟩ := List.forall_mem_cons.mp h
      obtain ⟨values, hall, hvalues⟩ := ih hlater
      exact ⟨tree :: values, .cons hmeans hall, List.forall_mem_cons.mpr ⟨⟨text, hw⟩, hvalues⟩⟩
  obtain ⟨values, hall, hvalues⟩ := hvalues
  obtain ⟨text, h⟩ := exists_itemsText hvalues true
  exact ⟨_, _, .list hall, .list h⟩

/-- A record can be written as the list of its fields. -/
theorem canBeWritten_record {α : Type} {writing : α → RecordWriting} {a : α}
    (h : ∀ name ∈ (writing a).names, CanBeWritten (fun a => (writing a).Has name) a) :
    CanBeWritten (fun a => (writing a).Allows) a := by
  have hvalues : ∃ values, (writing a).Lists (writing a).names values ∧
      ∀ value ∈ values, ∃ text, value.IsWritten text := by
    generalize (writing a).names = names at h
    induction names with
    | nil => exact ⟨[], .done nofun, nofun⟩
    | cons name names ih =>
      obtain ⟨⟨tree, text, hhas, hw⟩, hlater⟩ := List.forall_mem_cons.mp h
      obtain ⟨values, hlists, hvalues⟩ := ih hlater
      exact ⟨tree :: values, .next hhas hlists, List.forall_mem_cons.mpr ⟨⟨text, hw⟩, hvalues⟩⟩
  obtain ⟨values, hlists, hvalues⟩ := hvalues
  obtain ⟨text, h⟩ := exists_itemsText hvalues true
  exact ⟨_, _, .list hlists, .list h⟩

/-- No function, and no token that stands for a transform. -/
def NameTransform.IsExpressible : NameTransform → Prop
  | custom _ => False
  | unrecognized token => token ∉ transformTokens
  | _ => True

structure BarrelPattern.IsExpressible (pattern : BarrelPattern) : Prop where
  transform : ∀ transform, pattern.transformImportName = some transform → transform.IsExpressible
  namedExports : ∀ exports, pattern.namedExports = some exports → exports.transform = none

structure RuleOptions.IsExpressible (options : RuleOptions) : Prop where
  patterns : options.patterns ≠ []
  each : ∀ pattern ∈ options.patterns, pattern.IsExpressible

theorem canBeWritten_transform {transform : NameTransform} (h : transform.IsExpressible) :
    CanBeWritten TransformTree transform := by
  have htree : ∃ token, TransformTree transform (.string token) := by
    cases transform with
    | lowercase => exact ⟨_, .lowercase⟩
    | kebabCase => exact ⟨_, .kebabCase⟩
    | camelCase => exact ⟨_, .camelCase⟩
    | custom transform => cases h
    | unrecognized token => exact ⟨_, .unrecognized h⟩
  obtain ⟨token, htree⟩ := htree
  obtain ⟨written, hw⟩ := exists_stringText token
  exact ⟨_, _, htree, .string hw⟩

theorem canBeWritten_namedExports {exports : NamedExports} (h : exports.transform = none) :
    CanBeWritten NamedExportsTree exports := by
  have hrecord : CanBeWritten (fun exports => exports.writing.Allows) exports := by
    refine canBeWritten_record ?_
    show ∀ name ∈ ["suffixes", "customPattern"], _
    simp only [List.forall_mem_cons]
    refine ⟨.list fun suffix _ => canBeWritten_text suffix, ?_, nofun⟩
    exact .optional fun template _ => canBeWritten_text template
  obtain ⟨tree, text, hallows, hw⟩ := hrecord
  exact ⟨tree, text, ⟨h, hallows⟩, hw⟩

theorem canBeWritten_pattern {pattern : BarrelPattern} (h : pattern.IsExpressible) :
    CanBeWritten PatternTree pattern := by
  refine canBeWritten_record ?_
  show ∀ name ∈ ["barrel", "transformPattern", "transformImportName", "namedExports"], _
  simp only [List.forall_mem_cons]
  refine ⟨canBeWritten_text _, canBeWritten_text _, ?_, ?_, nofun⟩
  · exact .optional fun transform ht => canBeWritten_transform (h.transform transform ht)
  · exact .optional fun exports he => canBeWritten_namedExports (h.namedExports exports he)

theorem exists_document {options : RuleOptions} (h : options.IsExpressible) :
    ∃ tree text, OptionsTree options tree ∧ tree.IsDocument text := by
  have hrecord : CanBeWritten (fun options => options.writing.Allows) options := by
    refine canBeWritten_record ?_
    refine List.forall_mem_singleton.mpr ?_
    exact .list fun pattern hp => canBeWritten_pattern (h.each pattern hp)
  obtain ⟨tree, text, hallows, hw⟩ := hrecord
  refine ⟨tree, text, ⟨h.patterns, hallows⟩, [], text, [], isBlank_nil, hw, isBlank_nil, ?_⟩
  rw [List.append_nil, List.nil_append]

end DirectImports
