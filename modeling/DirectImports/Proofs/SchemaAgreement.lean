import Mathlib.Data.List.Nodup
import DirectImports.Proofs.OptionsRefusal
import DirectImports.Proofs.SchemaValidation

/-! The schema of the rule options against their reader. Both take the same documents, apart from
what only one of them knows: other writings of a record, tokens of no transform, and functions. -/

namespace DirectImports

namespace JsonTree

def valuesOf (tree : JsonTree) (name : String) : List JsonTree :=
  (tree.members.filter fun member => member.1 = name.toList).map Prod.snd

theorem mem_valuesOf {members : List (Text × JsonTree)} {value : JsonTree} {name : String} :
    value ∈ (object members).valuesOf name ↔ (name.toList, value) ∈ members := by
  simp [valuesOf, JsonTree.members]

def patterns (tree : JsonTree) : List JsonTree :=
  (tree.valuesOf "patterns").flatMap items

def transforms (tree : JsonTree) : List JsonTree :=
  tree.patterns.flatMap fun pattern => pattern.valuesOf "transformImportName"

def namedExports (tree : JsonTree) : List JsonTree :=
  tree.patterns.flatMap fun pattern => pattern.valuesOf "namedExports"

def customPatterns (tree : JsonTree) : List JsonTree :=
  tree.namedExports.flatMap fun exports => exports.valuesOf "customPattern"

/-- Options in which no record is a list, no optional member is null, and each transform is
known. -/
structure IsPlain (tree : JsonTree) : Prop where
  options : tree.type ≠ .list
  patterns : ∀ pattern ∈ tree.patterns, pattern.type ≠ .list
  namedExports : ∀ exports ∈ tree.namedExports, exports.type ≠ .list ∧ exports.type ≠ .null
  transforms : ∀ transform ∈ tree.transforms, ∃ token ∈ transformTokens, transform = .string token
  customPatterns : ∀ template ∈ tree.customPatterns, template.type ≠ .null

/-- No object in a value has two members of one key. -/
inductive HasDistinctKeys : JsonTree → Prop
  | single {tree : JsonTree} (hl : tree.type ≠ .list) (ho : tree.type ≠ .object) :
      HasDistinctKeys tree
  | list {values : List JsonTree} (h : ∀ value ∈ values, HasDistinctKeys value) :
      HasDistinctKeys (.list values)
  | object {members : List (Text × JsonTree)} (distinct : (members.map Prod.fst).Nodup)
      (h : ∀ member ∈ members, HasDistinctKeys member.2) : HasDistinctKeys (.object members)

theorem HasDistinctKeys.keys {members : List (Text × JsonTree)}
    (h : HasDistinctKeys (.object members)) : (members.map Prod.fst).Nodup := by
  cases h with
  | single _ ho => exact absurd rfl ho
  | object distinct => exact distinct

theorem HasDistinctKeys.member {members : List (Text × JsonTree)} {key : Text} {value : JsonTree}
    (h : HasDistinctKeys (.object members)) (hm : (key, value) ∈ members) :
    HasDistinctKeys value := by
  cases h with
  | single _ ho => exact absurd rfl ho
  | object _ h => exact h _ hm

theorem HasDistinctKeys.item {values : List JsonTree} {value : JsonTree}
    (h : HasDistinctKeys (.list values)) (hm : value ∈ values) : HasDistinctKeys value := by
  cases h with
  | single hl _ => exact absurd rfl hl
  | list h => exact h _ hm

end JsonTree

section Records

variable {writing : RecordWriting} {properties : List (String × JsonValue)}
  {required : List String} {members : List (Text × JsonTree)}

/-- A record is admitted if the schema describes its fields, and those that it must have. -/
theorem RecordWriting.Allows.admitted (h : writing.Allows (.object members))
    (hnames : ∀ name ∈ writing.names, name ∈ properties.map Prod.fst)
    (hhas : ∀ property ∈ properties, ∀ value, (property.1.toList, value) ∈ members →
      writing.Has property.1 value → property.2.admits value = true)
    (hrequired : ∀ name ∈ required, name ∈ writing.names ∧ ¬writing.MayLack name) :
    (Schema.record properties required).admits (.object members) = true := by
  cases h with
  | object _ has lacks =>
    refine Schema.admits_record.mpr ⟨rfl, ?_, ?_, ?_⟩
    · intro property hp value hm
      obtain ⟨name, -, hname, hvalue⟩ := has _ hm
      obtain rfl := String.toList_inj.mp hname
      exact hhas property hp value hm hvalue
    · intro name hr
      obtain ⟨hname, hlack⟩ := hrequired name hr
      by_contra hnot
      exact hlack (lacks name hname hnot)
    · intro member hm
      obtain ⟨name, hname, hkey, -⟩ := has _ hm
      obtain ⟨property, hp, rfl⟩ := List.mem_map.mp (hnames name hname)
      exact List.mem_map.mpr ⟨property, hp, hkey⟩

/-- An admitted record is allowed if the values of its fields are. -/
theorem RecordWriting.allows_of_admitted
    (h : (Schema.record properties required).admits (.object members) = true)
    (hd : (members.map Prod.fst).Nodup)
    (hhas : ∀ property ∈ properties, ∀ value, (property.1.toList, value) ∈ members →
      property.1 ∈ writing.names ∧ writing.Has property.1 value)
    (hlacks : ∀ name ∈ writing.names, name.toList ∉ members.map Prod.fst →
      name ∉ required → writing.MayLack name) : writing.Allows (.object members) := by
  obtain ⟨-, -, hrequired, hknown⟩ := Schema.admits_record.mp h
  refine .object hd ?_ ?_
  · rintro ⟨key, value⟩ hm
    obtain ⟨property, hp, rfl⟩ := List.mem_map.mp (hknown _ hm)
    obtain ⟨hname, hvalue⟩ := hhas property hp value hm
    exact ⟨property.1, hname, rfl, hvalue⟩
  · intro name hname hnot
    exact hlacks name hname hnot fun hr => hnot (hrequired name hr)

variable {α : Type} {means : α → JsonTree → Prop} {name : String}

theorem exists_required (hd : (members.map Prod.fst).Nodup)
    (hin : name.toList ∈ members.map Prod.fst)
    (h : ∀ value, (name.toList, value) ∈ members → ∃ a, means a value) :
    ∃ a, ∀ value, (name.toList, value) ∈ members → means a value := by
  obtain ⟨⟨key, value⟩, hm, rfl⟩ := List.mem_map.mp hin
  obtain ⟨a, ha⟩ := h value hm
  refine ⟨a, fun other ho => ?_⟩
  have hsame := List.inj_on_of_nodup_map hd ho hm rfl
  obtain rfl := congrArg Prod.snd hsame
  exact ha

theorem exists_optional (hd : (members.map Prod.fst).Nodup)
    (h : ∀ value, (name.toList, value) ∈ members → ∃ a, means a value) :
    ∃ a, (∀ value, (name.toList, value) ∈ members → OptionalTree means a value) ∧
      (name.toList ∉ members.map Prod.fst → a = none) := by
  by_cases hin : name.toList ∈ members.map Prod.fst
  · obtain ⟨a, ha⟩ := exists_required hd hin h
    exact ⟨some a, fun value hv => .some (ha value hv), fun hnot => absurd hin hnot⟩
  · have hnone (value : JsonTree) : (name.toList, value) ∉ members :=
      fun hv => hin (List.mem_map_of_mem hv)
    exact ⟨none, fun value hv => absurd hv (hnone value), fun _ => rfl⟩

theorem exists_listTree {values : List JsonTree} (h : ∀ value ∈ values, ∃ a, means a value) :
    ∃ as, ListTree means as (.list values) := by
  induction values with
  | nil => exact ⟨[], .list .nil⟩
  | cons value values ih =>
    obtain ⟨⟨a, ha⟩, hlater⟩ := List.forall_mem_cons.mp h
    obtain ⟨as, has⟩ := ih hlater
    cases has with
    | list has => exact ⟨a :: as, .list (.cons ha has)⟩

theorem exists_textTree {tree : JsonTree} (h : (Schema.ofType "string").admits tree = true) :
    ∃ text, TextTree text tree :=
  tree.isString ((Schema.admits_ofType .string).mp h)

end Records

/-- The schema enumerates the transforms that the reader knows. -/
theorem admits_transform {tree : JsonTree} : Schema.transformImportName.admits tree = true ↔
    (∃ token ∈ transformTokens, tree = .string token) ∨ tree.type ≠ .string := by
  have htokens : ["lowercase", "kebab-case", "camelCase"].map Schema.text =
      transformTokens.map JsonValue.string := rfl
  simp only [Schema.transformImportName, Schema.object, JsonValue.admits, List.map_cons,
    List.map_nil, JsonValue.keywordsAdmit, SchemaKeyword.ofText?_names, Bool.and_true,
    JsonValue.someAdmits, JsonValue.anyAdmits, Bool.or_false, Bool.or_eq_true, htokens]
  refine or_congr ?_ Schema.admits_notString
  simp [JsonValue.listed, transformTokens, Schema.isSame_string]

theorem textTree_admitted {text : Text} {tree : JsonTree} (h : TextTree text tree) :
    (Schema.ofType "string").admits tree = true :=
  (Schema.admits_ofType .string).mpr h.type_eq

theorem listTree_admitted {α : Type} {means : α → JsonTree → Prop} {as : List α}
    {tree : JsonTree} {items : JsonValue} (h : ListTree means as tree)
    (hitem : ∀ value ∈ tree.items, ∀ a, means a value → items.admits value = true) :
    (Schema.listOf items).admits tree = true := by
  refine Schema.admits_listOf.mpr ⟨h.type_eq, fun value hv => ?_⟩
  cases h with
  | list h =>
    obtain ⟨a, ha⟩ := (ListTree.list h).exists_of_mem hv
    exact hitem value hv a ha

theorem namedExportsTree_admitted {exports : NamedExports} {tree : JsonTree}
    (h : NamedExportsTree exports tree) (hl : tree.type ≠ .list)
    (hn : ∀ template ∈ tree.valuesOf "customPattern", template.type ≠ .null) :
    Schema.namedExports.admits tree = true := by
  have hallows := h.allows
  cases hallows with
  | list => exact absurd rfl hl
  | @object members =>
    refine h.allows.admitted ?_ ?_ ?_
    · show ∀ name ∈ ["suffixes", "customPattern"], _
      decide
    · simp only [List.forall_mem_cons]
      refine ⟨fun value _ hvalue => ?_, fun value hm hvalue => ?_, fun _ _ => nofun, nofun⟩
      · exact listTree_admitted hvalue fun _ _ _ => textTree_admitted
      · have hne := hn value (JsonTree.mem_valuesOf.mpr hm)
        have hnull : value ≠ .null := fun hv => hne (by rw [hv]; rfl)
        obtain ⟨template, ht⟩ := OptionalTree.exists_of_ne_null hvalue hnull
        exact textTree_admitted ht
    · refine List.forall_mem_singleton.mpr ⟨.head _, fun hlack => ?_⟩
      exact absurd hlack.1 (by decide)

theorem patternTree_admitted {pattern : BarrelPattern} {tree : JsonTree}
    (h : PatternTree pattern tree) (hl : tree.type ≠ .list)
    (ht : ∀ transform ∈ tree.valuesOf "transformImportName",
      ∃ token ∈ transformTokens, transform = .string token)
    (he : ∀ exports ∈ tree.valuesOf "namedExports", exports.type ≠ .list ∧ exports.type ≠ .null ∧
      ∀ template ∈ exports.valuesOf "customPattern", template.type ≠ .null) :
    Schema.pattern.admits tree = true := by
  have hallows : pattern.writing.Allows tree := h
  cases hallows with
  | list => exact absurd rfl hl
  | @object members =>
    refine RecordWriting.Allows.admitted h ?_ ?_ ?_
    · show ∀ name ∈ ["barrel", "transformPattern", "transformImportName", "namedExports"], _
      decide
    · simp only [List.forall_mem_cons]
      refine ⟨fun _ _ => textTree_admitted, fun _ _ => textTree_admitted,
        fun value hm _ => ?_, fun value hm hvalue => ?_, nofun⟩
      · exact admits_transform.mpr (.inl (ht value (JsonTree.mem_valuesOf.mpr hm)))
      · obtain ⟨hlist, hnull, htemplate⟩ := he value (JsonTree.mem_valuesOf.mpr hm)
        have hne : value ≠ .null := fun hv => hnull (by rw [hv]; rfl)
        obtain ⟨exports, hexports⟩ := OptionalTree.exists_of_ne_null hvalue hne
        exact namedExportsTree_admitted hexports hlist htemplate
    · show ∀ name ∈ ["barrel", "transformPattern"], _
      simp [BarrelPattern.writing]

theorem optionsTree_admitted {options : RuleOptions} {tree : JsonTree}
    (h : OptionsTree options tree) (hp : tree.IsPlain) :
    Schema.ruleOptions.admits tree = true := by
  have hallows := h.allows
  cases hallows with
  | list => exact absurd rfl hp.options
  | @object members =>
    refine h.allows.admitted ?_ ?_ ?_
    · exact List.forall_mem_singleton.mpr (.head _)
    · refine List.forall_mem_singleton.mpr fun value hm hvalue => ?_
      have hvalues := JsonTree.mem_valuesOf.mpr hm
      refine listTree_admitted hvalue fun tree htree pattern hpattern => ?_
      have hin : tree ∈ (JsonTree.object members).patterns :=
        List.mem_flatMap_of_mem hvalues htree
      refine patternTree_admitted hpattern (hp.patterns tree hin) ?_ ?_
      · exact fun transform ht => hp.transforms transform (List.mem_flatMap_of_mem hin ht)
      · intro exports he
        have he' : exports ∈ (JsonTree.object members).namedExports :=
          List.mem_flatMap_of_mem hin he
        obtain ⟨hlist, hnull⟩ := hp.namedExports exports he'
        exact ⟨hlist, hnull, fun template ht =>
          hp.customPatterns template (List.mem_flatMap_of_mem he' ht)⟩
    · exact List.forall_mem_singleton.mpr ⟨.head _, id⟩

theorem exists_namedExportsTree {tree : JsonTree} (h : Schema.namedExports.admits tree = true)
    (hd : tree.HasDistinctKeys) (hn : tree.valuesOf "transformImportName" = []) :
    ∃ exports, NamedExportsTree exports tree := by
  obtain ⟨htype, hproperties, hrequired, -⟩ := Schema.admits_record.mp h
  obtain ⟨members, rfl⟩ := tree.isObject htype
  simp only [List.forall_mem_cons] at hproperties
  obtain ⟨hsuffixes, htemplate, -, -⟩ := hproperties
  have hin := hrequired "suffixes" (.head _)
  obtain ⟨suffixes, hsuffixes⟩ : ∃ suffixes, ∀ value, ("suffixes".toList, value) ∈ members →
      ListTree TextTree suffixes value := by
    refine exists_required hd.keys hin fun value hm => ?_
    obtain ⟨hlist, hitems⟩ := Schema.admits_listOf.mp (hsuffixes value hm)
    obtain ⟨values, rfl⟩ := value.isList hlist
    exact exists_listTree fun item hi => exists_textTree (hitems item hi)
  obtain ⟨template, htemplate, hnone⟩ : ∃ template : Option Text,
      (∀ value, ("customPattern".toList, value) ∈ members →
        OptionalTree TextTree template value) ∧
      ("customPattern".toList ∉ members.map Prod.fst → template = none) :=
    exists_optional hd.keys fun value hm => exists_textTree (htemplate value hm)
  refine ⟨⟨suffixes, template, none⟩, rfl, RecordWriting.allows_of_admitted h hd.keys ?_ ?_⟩
  · simp only [List.forall_mem_cons]
    refine ⟨fun value hm => ⟨.head _, hsuffixes value hm⟩,
      fun value hm => ⟨.tail _ (.head _), htemplate value hm⟩, fun value hm => ?_, nofun⟩
    have hmem := JsonTree.mem_valuesOf.mpr hm
    rw [hn] at hmem
    cases hmem
  · show ∀ name ∈ ["suffixes", "customPattern"], _
    simp only [List.forall_mem_cons]
    exact ⟨fun _ hnot => absurd (.head _) hnot, fun hnot _ => ⟨rfl, hnone hnot⟩, nofun⟩

theorem exists_patternTree {tree : JsonTree} (h : Schema.pattern.admits tree = true)
    (hd : tree.HasDistinctKeys)
    (ht : ∀ transform ∈ tree.valuesOf "transformImportName", transform.type = .string)
    (he : ∀ exports ∈ tree.valuesOf "namedExports", exports.valuesOf "transformImportName" = []) :
    ∃ pattern, PatternTree pattern tree := by
  obtain ⟨htype, hproperties, hrequired, -⟩ := Schema.admits_record.mp h
  obtain ⟨members, rfl⟩ := tree.isObject htype
  simp only [List.forall_mem_cons] at hproperties
  obtain ⟨hbarrel, htemplate, htransform, hexports, -⟩ := hproperties
  have hin := hrequired "barrel" (.head _)
  have hin' := hrequired "transformPattern" (.tail _ (.head _))
  obtain ⟨barrel, hbarrel⟩ : ∃ barrel, ∀ value, ("barrel".toList, value) ∈ members →
      TextTree barrel value :=
    exists_required hd.keys hin fun value hm => exists_textTree (hbarrel value hm)
  obtain ⟨template, htemplate⟩ : ∃ template, ∀ value,
      ("transformPattern".toList, value) ∈ members → TextTree template value :=
    exists_required hd.keys hin' fun value hm => exists_textTree (htemplate value hm)
  obtain ⟨transform, htransform, hnone⟩ : ∃ transform : Option NameTransform,
      (∀ value, ("transformImportName".toList, value) ∈ members →
        OptionalTree TransformTree transform value) ∧
      ("transformImportName".toList ∉ members.map Prod.fst → transform = none) := by
    refine exists_optional hd.keys fun value hm => ?_
    have hstring := ht value (JsonTree.mem_valuesOf.mpr hm)
    obtain ⟨token, rfl⟩ := value.isString hstring
    exact ⟨_, transformTree_iff.mpr ⟨token, rfl, rfl⟩⟩
  obtain ⟨exports, hexports, hnone'⟩ : ∃ exports : Option NamedExports,
      (∀ value, ("namedExports".toList, value) ∈ members →
        OptionalTree NamedExportsTree exports value) ∧
      ("namedExports".toList ∉ members.map Prod.fst → exports = none) :=
    exists_optional hd.keys fun value hm => exists_namedExportsTree (hexports value hm)
      (hd.member hm) (he value (JsonTree.mem_valuesOf.mpr hm))
  refine ⟨⟨barrel, template, transform, exports⟩,
    RecordWriting.allows_of_admitted h hd.keys ?_ ?_⟩
  · simp only [List.forall_mem_cons]
    exact ⟨fun value hm => ⟨by simp [BarrelPattern.writing], hbarrel value hm⟩,
      fun value hm => ⟨by simp [BarrelPattern.writing], htemplate value hm⟩,
      fun value hm => ⟨by simp [BarrelPattern.writing], htransform value hm⟩,
      fun value hm => ⟨by simp [BarrelPattern.writing], hexports value hm⟩,
      List.forall_mem_nil _⟩
  · show ∀ name ∈ ["barrel", "transformPattern", "transformImportName", "namedExports"], _
    simp only [List.forall_mem_cons]
    exact ⟨fun _ hnot => absurd (.head _) hnot, fun _ hnot => absurd (.tail _ (.head _)) hnot,
      fun hnot _ => .inl ⟨rfl, hnone hnot⟩, fun hnot _ => .inr ⟨rfl, hnone' hnot⟩,
      List.forall_mem_nil _⟩

theorem exists_optionsTree {tree : JsonTree} (h : Schema.ruleOptions.admits tree = true)
    (hd : tree.HasDistinctKeys) (hp : tree.patterns ≠ [])
    (ht : ∀ transform ∈ tree.transforms, transform.type = .string)
    (he : ∀ exports ∈ tree.namedExports, exports.valuesOf "transformImportName" = []) :
    ∃ options, OptionsTree options tree := by
  obtain ⟨htype, hproperties, hrequired, -⟩ := Schema.admits_record.mp h
  obtain ⟨members, rfl⟩ := tree.isObject htype
  have hpatterns := List.forall_mem_singleton.mp hproperties
  obtain ⟨patterns, hpatterns⟩ : ∃ patterns, ∀ value, ("patterns".toList, value) ∈ members →
      ListTree PatternTree patterns value := by
    refine exists_required hd.keys (hrequired "patterns" (.head _)) fun value hm => ?_
    obtain ⟨hlist, hitems⟩ := Schema.admits_listOf.mp (hpatterns value hm)
    obtain ⟨values, rfl⟩ := value.isList hlist
    refine exists_listTree fun item hi => ?_
    have hin : item ∈ (JsonTree.object members).patterns :=
      List.mem_flatMap_of_mem (JsonTree.mem_valuesOf.mpr hm) hi
    refine exists_patternTree (hitems item hi) ((hd.member hm).item hi) ?_ ?_
    · exact fun transform hmem => ht transform (List.mem_flatMap_of_mem hin hmem)
    · exact fun exports hmem => he exports (List.mem_flatMap_of_mem hin hmem)
  refine ⟨⟨patterns⟩, ?_, RecordWriting.allows_of_admitted h hd.keys ?_ ?_⟩
  · -- A pattern of the value stands for a pattern of the options.
    obtain ⟨pattern, hpattern⟩ := List.exists_mem_of_ne_nil _ hp
    obtain ⟨value, hvalue, hitem⟩ := List.mem_flatMap.mp hpattern
    have hlist := hpatterns value (JsonTree.mem_valuesOf.mp hvalue)
    rintro rfl
    cases hlist with
    | list h =>
      rw [List.forall₂_nil_left_iff.mp h] at hitem
      cases hitem
  · exact List.forall_mem_singleton.mpr fun value hm => ⟨.head _, hpatterns value hm⟩
  · exact List.forall_mem_singleton.mpr fun _ hnot => absurd (.head _) hnot

/-- Options that are written plainly are admitted by the schema if they are read. What the schema
admits is read unless it has no pattern, or has a value where only a function can stand. -/
theorem readOptions_agrees_schema {tree : JsonTree} {text : Text} (ht : tree.IsDocument text) :
    optionsSchema = .list [Schema.ruleOptions] ∧
      (tree.IsPlain → (∃ options, readOptions text = .ok options) →
        Schema.ruleOptions.admits tree = true) ∧
      (tree.HasDistinctKeys → Schema.ruleOptions.admits tree = true → tree.patterns ≠ [] →
        (∀ transform ∈ tree.transforms, transform.type = .string) →
        (∀ exports ∈ tree.namedExports, exports.valuesOf "transformImportName" = []) →
        ∃ options, readOptions text = .ok options) := by
  refine ⟨rfl, ?_, ?_⟩
  · rintro hplain ⟨options, hread⟩
    exact optionsTree_admitted ((readOptions_iff ht options).mp hread) hplain
  · intro hkeys hadmits hpatterns htransforms hexports
    obtain ⟨options, htree⟩ :=
      exists_optionsTree hadmits hkeys hpatterns htransforms hexports
    exact ⟨options, (readOptions_iff ht options).mpr htree⟩

def describedExports : JsonTree :=
  .object [("suffixes".toList, .list [.string ['P']]), ("customPattern".toList, .string ['c'])]

def describedPattern : JsonTree :=
  .object [("transformImportName".toList, .string "camelCase".toList),
    ("barrel".toList, .string ['a']), ("namedExports".toList, describedExports),
    ("transformPattern".toList, .string ['b'])]

/-- Options with all members, as objects. -/
def describedTree : JsonTree :=
  .object [("patterns".toList, .list [describedPattern])]

def describedDocument : Text :=
  ("\x7b\"patterns\":[\x7b\"transformImportName\":\"camelCase\",\"barrel\":\"a\"," ++
    "\"namedExports\":\x7b\"suffixes\":[\"P\"],\"customPattern\":\"c\"\x7d," ++
    "\"transformPattern\":\"b\"\x7d]\x7d").toList

theorem describedDocument_text : describedTree.IsDocument describedDocument := by
  have hblank : IsBlank [] := isBlank_nil
  have hsuffixes := memberText_self "suffixes".toList (by decide +kernel) <|
    .list <| .first hblank (isWritten_self ['P'] (by decide)) <| .nil hblank
  have hcustom := memberText_self "customPattern".toList (by decide +kernel)
    (isWritten_self ['c'] (by decide))
  have hexports := memberText_self "namedExports".toList (by decide +kernel) <|
    .object <| .first hblank hsuffixes <| .next hblank hblank hcustom <| .nil hblank
  have htransform := memberText_self "transformImportName".toList (by decide +kernel)
    (isWritten_self "camelCase".toList (by decide +kernel))
  have hbarrel := memberText_self "barrel".toList (by decide +kernel)
    (isWritten_self ['a'] (by decide))
  have htemplate := memberText_self "transformPattern".toList (by decide +kernel)
    (isWritten_self ['b'] (by decide))
  have hpattern := JsonTree.IsWritten.object <|
    .first hblank htransform <| .next hblank hblank hbarrel <| .next hblank hblank hexports <|
    .next hblank hblank htemplate <| .nil hblank
  have hpatterns := memberText_self "patterns".toList (by decide +kernel) <|
    .list <| .first hblank hpattern <| .nil hblank
  have htree : describedTree.IsWritten _ := .object (.first hblank hpatterns (.nil hblank))
  exact ⟨[], _, [], hblank, htree, hblank, by decide +kernel⟩

theorem describedTree_patterns : describedTree.patterns = [describedPattern] :=
  rfl

theorem describedTree_namedExports : describedTree.namedExports = [describedExports] :=
  rfl

theorem describedTree_transforms :
    describedTree.transforms = [.string "camelCase".toList] :=
  rfl

theorem describedTree_isPlain : describedTree.IsPlain where
  options := nofun
  patterns := by
    rw [describedTree_patterns]
    exact List.forall_mem_singleton.mpr nofun
  namedExports := by
    rw [describedTree_namedExports]
    exact List.forall_mem_singleton.mpr ⟨nofun, nofun⟩
  transforms := by
    rw [describedTree_transforms]
    exact List.forall_mem_singleton.mpr ⟨_, by decide, rfl⟩
  customPatterns := by
    have hcustom : describedTree.customPatterns = [.string ['c']] := rfl
    rw [hcustom]
    exact List.forall_mem_singleton.mpr nofun

theorem describedTree_hasDistinctKeys : describedTree.HasDistinctKeys := by
  have htext (text : Text) : (JsonTree.string text).HasDistinctKeys := .single nofun nofun
  have hexports : describedExports.HasDistinctKeys := by
    refine .object (by decide +kernel) ?_
    simp only [List.forall_mem_cons]
    exact ⟨.list (List.forall_mem_singleton.mpr (htext _)), htext _, nofun⟩
  have hpattern : describedPattern.HasDistinctKeys := by
    refine .object (by decide +kernel) ?_
    simp only [List.forall_mem_cons]
    exact ⟨htext _, htext _, hexports, htext _, nofun⟩
  have hpatterns : (JsonTree.list [describedPattern]).HasDistinctKeys :=
    .list (List.forall_mem_singleton.mpr hpattern)
  exact .object (by simp) (List.forall_mem_singleton.mpr hpatterns)

theorem describedDocument_agrees :
    describedTree.IsDocument describedDocument ∧ describedTree.IsPlain ∧
      describedTree.HasDistinctKeys ∧ Schema.ruleOptions.admits describedTree = true ∧
      ∃ options, readOptions describedDocument = .ok options := by
  obtain ⟨-, hadmitted, hread⟩ := readOptions_agrees_schema describedDocument_text
  have htransforms : ∀ transform ∈ describedTree.transforms, transform.type = .string := by
    rw [describedTree_transforms]
    exact List.forall_mem_singleton.mpr rfl
  have hexports : ∀ exports ∈ describedTree.namedExports,
      exports.valuesOf "transformImportName" = [] := by
    rw [describedTree_namedExports]
    exact List.forall_mem_singleton.mpr rfl
  have hpatterns : describedTree.patterns ≠ [] := by
    rw [describedTree_patterns]
    exact List.cons_ne_nil _ _
  have hoptions := hread describedTree_hasDistinctKeys (by decide +kernel) hpatterns htransforms
    hexports
  exact ⟨describedDocument_text, describedTree_isPlain, describedTree_hasDistinctKeys,
    hadmitted describedTree_isPlain hoptions, hoptions⟩

end DirectImports
