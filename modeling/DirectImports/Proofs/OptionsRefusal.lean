import DirectImports.Proofs.OptionsText

/-! Changes of an options document after which it holds no options: a member too many, too few or of
another type, anywhere in it. It is refused then, without a notice. -/

namespace DirectImports

/-- The fields of a record in order, and those that it must have with their types. -/
structure RecordKind where
  names : List String
  required : List (String × JsonType)

structure RecordKind.Describes (kind : RecordKind) (writing : RecordWriting) : Prop where
  names : writing.names = kind.names
  required : ∀ field ∈ kind.required, field.1 ∈ kind.names ∧ ¬writing.MayLack field.1 ∧
    ∀ tree, writing.Has field.1 tree → tree.type = field.2

/-- Another value in the place of a field, in an object or in a list of the fields in order. -/
inductive FieldReplaced (names : List String) (name : String) (old new : JsonTree) :
    JsonTree → JsonTree → Prop
  | object {before after : List (Text × JsonTree)} :
      FieldReplaced names name old new (.object (before ++ (name.toList, old) :: after))
        (.object (before ++ (name.toList, new) :: after))
  | list {before after : List JsonTree} (h : names[before.length]? = some name) :
      FieldReplaced names name old new (.list (before ++ old :: after))
        (.list (before ++ new :: after))

/-- A member of an unknown field, a second member of one key, no member of a required field, or a
value of another type in it. -/
inductive RecordMutation (kind : RecordKind) : JsonTree → JsonTree → Prop
  | unknown {before after : List (Text × JsonTree)} {key : Text} (value : JsonTree)
      (h : ∀ name ∈ kind.names, name.toList ≠ key) :
      RecordMutation kind (.object (before ++ after)) (.object (before ++ (key, value) :: after))
  | repeated {before after : List (Text × JsonTree)} {key : Text} {value : JsonTree}
      (again : JsonTree) (h : (key, value) ∈ before ++ after) :
      RecordMutation kind (.object (before ++ after)) (.object (before ++ (key, again) :: after))
  | removed {before after : List (Text × JsonTree)} {name : String} {type : JsonType}
      {value : JsonTree} (h : (name, type) ∈ kind.required) :
      RecordMutation kind (.object (before ++ (name.toList, value) :: after))
        (.object (before ++ after))
  | mistyped {name : String} {type : JsonType} {old new tree tree' : JsonTree}
      (h : (name, type) ∈ kind.required) (ht : new.type ≠ type)
      (hr : FieldReplaced kind.names name old new tree tree') : RecordMutation kind tree tree'

theorem FieldReplaced.symm {names : List String} {name : String} {old new tree tree' : JsonTree}
    (h : FieldReplaced names name old new tree tree') :
    FieldReplaced names name new old tree' tree := by
  cases h with
  | object => exact .object
  | list h => exact .list h

theorem FieldReplaced.ne_null {names : List String} {name : String} {old new tree tree' : JsonTree}
    (h : FieldReplaced names name old new tree tree') : tree ≠ .null ∧ tree' ≠ .null := by
  cases h with
  | object => exact ⟨nofun, nofun⟩
  | list => exact ⟨nofun, nofun⟩

theorem RecordMutation.ne_null {kind : RecordKind} {tree tree' : JsonTree}
    (h : RecordMutation kind tree tree') : tree ≠ .null ∧ tree' ≠ .null := by
  cases h with
  | mistyped _ _ hr => exact hr.ne_null
  | _ => exact ⟨nofun, nofun⟩

theorem RecordWriting.Lists.has {writing : RecordWriting} {names : List String} {name : String}
    {before after : List JsonTree} {value : JsonTree}
    (h : writing.Lists names (before ++ value :: after))
    (hname : names[before.length]? = some name) : writing.Has name value := by
  induction before generalizing names with
  | nil =>
    cases h with
    | next h =>
      obtain rfl := Option.some.inj hname
      exact h
  | cons other before ih =>
    cases h with
    | next _ later => exact ih later hname

theorem RecordWriting.Allows.has {writing : RecordWriting} {name : String}
    {old new tree tree' : JsonTree} (h : writing.Allows tree')
    (hr : FieldReplaced writing.names name old new tree tree') : writing.Has name new := by
  cases hr with
  | @object before after =>
    cases h with
    | object _ hhas =>
      have hmem : (name.toList, new) ∈ before ++ (name.toList, new) :: after := by simp
      obtain ⟨other, -, hother, hvalue⟩ := hhas _ hmem
      obtain rfl := String.toList_inj.mp hother
      exact hvalue
  | list hname =>
    cases h with
    | list h => exact h.has hname

theorem RecordMutation.not_allows {kind : RecordKind} {writing writing' : RecordWriting}
    (hkind : kind.Describes writing') {tree tree' : JsonTree} (h : writing.Allows tree)
    (hm : RecordMutation kind tree tree') : ¬writing'.Allows tree' := by
  intro h'
  cases hm with
  | @unknown before after key value hunknown =>
    cases h' with
    | object _ hhas =>
      have hmem : (key, value) ∈ before ++ (key, value) :: after := by simp
      obtain ⟨name, hname, hkey, -⟩ := hhas _ hmem
      rw [hkind.names] at hname
      exact hunknown name hname hkey
  | @repeated before after key value again hmem =>
    cases h' with
    | object hnodup =>
      -- In front of the others the second member stands as well as anywhere else.
      have hmoved : ((key, again) :: (before ++ after)).map Prod.fst |>.Nodup :=
        (List.perm_middle.map Prod.fst).nodup_iff.mp hnodup
      exact (List.nodup_cons.mp hmoved).1 (List.mem_map.mpr ⟨_, hmem, rfl⟩)
  | @removed before after name type value hrequired =>
    obtain ⟨hname, hlack, -⟩ := hkind.required _ hrequired
    cases h with
    | object hnodup =>
      -- No other member had the key of the one that is gone.
      have hmoved : ((name.toList, value) :: (before ++ after)).map Prod.fst |>.Nodup :=
        (List.perm_middle.map Prod.fst).nodup_iff.mp hnodup
      cases h' with
      | object _ _ hlacks =>
        rw [← hkind.names] at hname
        exact hlack (hlacks name hname (List.nodup_cons.mp hmoved).1)
  | mistyped hrequired htype hr =>
    obtain ⟨-, -, hvalue⟩ := hkind.required _ hrequired
    rw [← hkind.names] at hr
    exact htype (hvalue _ (h'.has hr))

def namedExportsKind : RecordKind where
  names := ["suffixes", "customPattern"]
  required := [("suffixes", .list)]

def patternKind : RecordKind where
  names := ["barrel", "transformPattern", "transformImportName", "namedExports"]
  required := [("barrel", .string), ("transformPattern", .string)]

def optionsKind : RecordKind where
  names := ["patterns"]
  required := [("patterns", .list)]

/-- A change of named exports, or of a suffix to a value that is no string. -/
inductive NamedExportsMutation : JsonTree → JsonTree → Prop
  | record {tree tree' : JsonTree} (h : RecordMutation namedExportsKind tree tree') :
      NamedExportsMutation tree tree'
  | suffix {before after : List JsonTree} {old new tree tree' : JsonTree} (ht : new.type ≠ .string)
      (hr : FieldReplaced namedExportsKind.names "suffixes" (.list (before ++ old :: after))
        (.list (before ++ new :: after)) tree tree') : NamedExportsMutation tree tree'

/-- A change of a pattern, itself or in its named exports. -/
inductive PatternMutation : JsonTree → JsonTree → Prop
  | record {tree tree' : JsonTree} (h : RecordMutation patternKind tree tree') :
      PatternMutation tree tree'
  | namedExports {old new tree tree' : JsonTree} (hm : NamedExportsMutation old new)
      (hr : FieldReplaced patternKind.names "namedExports" old new tree tree') :
      PatternMutation tree tree'

/-- A change of options, itself or in one of their patterns, or to options without patterns. -/
inductive OptionsMutation : JsonTree → JsonTree → Prop
  | record {tree tree' : JsonTree} (h : RecordMutation optionsKind tree tree') :
      OptionsMutation tree tree'
  | pattern {before after : List JsonTree} {old new tree tree' : JsonTree}
      (hm : PatternMutation old new)
      (hr : FieldReplaced optionsKind.names "patterns" (.list (before ++ old :: after))
        (.list (before ++ new :: after)) tree tree') : OptionsMutation tree tree'
  | noPatterns {old tree tree' : JsonTree}
      (hr : FieldReplaced optionsKind.names "patterns" old (.list []) tree tree') :
      OptionsMutation tree tree'

/-- A changed document: its value is changed, or there is more than blanks behind it. -/
inductive MutatedDocument (tree : JsonTree) (text : Text) : Text → Prop
  | tree {tree' : JsonTree} {text' : Text} (hm : OptionsMutation tree tree')
      (ht : tree'.IsDocument text') : MutatedDocument tree text text'
  | trailing {junk : Text} (h : ¬IsBlank junk) : MutatedDocument tree text (text ++ junk)

theorem ListTree.type_eq {α : Type} {means : α → JsonTree → Prop} {as : List α}
    {tree : JsonTree} (h : ListTree means as tree) : tree.type = .list := by
  cases h with
  | list => rfl

theorem ListTree.exists_of_mem {α : Type} {means : α → JsonTree → Prop} {as : List α}
    {values : List JsonTree} (h : ListTree means as (.list values)) {value : JsonTree}
    (hmem : value ∈ values) : ∃ a, means a value := by
  cases h with
  | list h =>
    induction h with
    | nil => cases hmem
    | @cons a _ _ _ ha _ ih =>
      rcases List.mem_cons.mp hmem with rfl | hmem
      · exact ⟨a, ha⟩
      · exact ih hmem

theorem OptionalTree.exists_of_ne_null {α : Type} {means : α → JsonTree → Prop} {a : Option α}
    {tree : JsonTree} (h : OptionalTree means a tree) (hn : tree ≠ .null) : ∃ a, means a tree := by
  cases h with
  | none => exact absurd rfl hn
  | some h => exact ⟨_, h⟩

theorem TextTree.type_eq {text : Text} {tree : JsonTree} (h : TextTree text tree) :
    tree.type = .string := by
  rw [h]
  rfl

theorem namedExportsKind_describes (exports : NamedExports) :
    namedExportsKind.Describes exports.writing where
  names := rfl
  required := by
    refine List.forall_mem_singleton.mpr ⟨by decide, ?_, fun tree => ListTree.type_eq⟩
    exact fun h => nomatch h.1

theorem patternKind_describes (pattern : BarrelPattern) :
    patternKind.Describes pattern.writing where
  names := rfl
  required := by
    simp only [patternKind, List.forall_mem_cons]
    refine ⟨⟨by decide, ?_, fun tree => TextTree.type_eq⟩,
      ⟨by decide, ?_, fun tree => TextTree.type_eq⟩, nofun⟩
    all_goals simp [BarrelPattern.writing]

theorem optionsKind_describes (options : RuleOptions) :
    optionsKind.Describes options.writing where
  names := rfl
  required := List.forall_mem_singleton.mpr ⟨by decide, id, fun tree => ListTree.type_eq⟩

theorem NamedExportsMutation.not_tree {exports exports' : NamedExports} {tree tree' : JsonTree}
    (h : NamedExportsTree exports tree) (hm : NamedExportsMutation tree tree') :
    ¬NamedExportsTree exports' tree' := by
  intro h'
  cases hm with
  | record hm => exact hm.not_allows (namedExportsKind_describes exports') h.allows h'.allows
  | @suffix before after old new _ _ htype hr =>
    have hsuffixes : ListTree TextTree exports'.suffixes (.list (before ++ new :: after)) :=
      h'.allows.has hr
    have hmem : new ∈ before ++ new :: after := by simp
    obtain ⟨text, htext⟩ := hsuffixes.exists_of_mem hmem
    exact htype htext.type_eq

theorem NamedExportsMutation.ne_null {tree tree' : JsonTree}
    (h : NamedExportsMutation tree tree') : tree ≠ .null ∧ tree' ≠ .null := by
  cases h with
  | record h => exact h.ne_null
  | suffix _ hr => exact hr.ne_null

theorem PatternMutation.not_tree {pattern pattern' : BarrelPattern} {tree tree' : JsonTree}
    (h : PatternTree pattern tree) (hm : PatternMutation tree tree') :
    ¬PatternTree pattern' tree' := by
  intro h'
  cases hm with
  | record hm => exact hm.not_allows (patternKind_describes pattern') h h'
  | namedExports hm hr =>
    obtain ⟨hold, hnew⟩ := hm.ne_null
    obtain ⟨exports, hexports⟩ := OptionalTree.exists_of_ne_null (h.has hr.symm) hold
    obtain ⟨exports', hexports'⟩ := OptionalTree.exists_of_ne_null (h'.has hr) hnew
    exact hm.not_tree hexports hexports'

theorem OptionsMutation.not_tree {options options' : RuleOptions} {tree tree' : JsonTree}
    (h : OptionsTree options tree) (hm : OptionsMutation tree tree') :
    ¬OptionsTree options' tree' := by
  intro h'
  cases hm with
  | record hm => exact hm.not_allows (optionsKind_describes options') h.allows h'.allows
  | @pattern before after old new _ _ hm hr =>
    have hold : ListTree PatternTree options.patterns (.list (before ++ old :: after)) :=
      h.allows.has hr.symm
    have hnew : ListTree PatternTree options'.patterns (.list (before ++ new :: after)) :=
      h'.allows.has hr
    obtain ⟨pattern, hpattern⟩ := hold.exists_of_mem (by simp : old ∈ before ++ old :: after)
    obtain ⟨pattern', hpattern'⟩ := hnew.exists_of_mem (by simp : new ∈ before ++ new :: after)
    exact hm.not_tree hpattern hpattern'
  | noPatterns hr =>
    have hnew : ListTree PatternTree options'.patterns (.list []) := h'.allows.has hr
    refine h'.patterns ?_
    generalize options'.patterns = patterns at hnew
    cases hnew with
    | list hnew => exact List.forall₂_nil_right_iff.mp hnew

/-- A document that is read is refused after each change of this kind, and gives no notices. -/
theorem readOptions_mutated {options : RuleOptions} {tree : JsonTree} {text text' : Text}
    (ht : tree.IsDocument text) (hr : readOptions text = .ok options)
    (hm : MutatedDocument tree text text') :
    (∃ problem, readOptions text' = .error problem) ∧ optionsNotices text' = [] := by
  have htree : OptionsTree options tree := (readOptions_iff ht options).mp hr
  have hrefused : ∀ options', readOptions text' ≠ .ok options' := by
    intro options' hread
    cases hm with
    | tree hm ht' => exact hm.not_tree htree ((readOptions_iff ht' options').mp hread)
    | trailing hjunk => exact hjunk ((readOptions_append_iff ht _ options').mp hread).2
  cases hread : readOptions text' with
  | ok options' => exact absurd hread (hrefused options')
  | error problem =>
    refine ⟨⟨problem, rfl⟩, ?_⟩
    simp only [optionsNotices, hread]

/-- A pattern as a list of its fields. -/
def plainPattern (exports : List (Text × JsonTree)) : JsonTree :=
  .list [.string ['a'], .string ['b'], .null, .object exports]

def plainTree (exports : List (Text × JsonTree)) : JsonTree :=
  .object [("patterns".toList, .list [plainPattern exports])]

def plainDocument : Text :=
  "\x7b\"patterns\":[[\"a\",\"b\",null,\x7b\"suffixes\":[]\x7d]]\x7d".toList

/-- Named exports with the transform of a pattern. -/
def refusedDocument : Text :=
  ("\x7b\"patterns\":[[\"a\",\"b\",null,\x7b\"transformImportName\":\"lowercase\"," ++
    "\"suffixes\":[]\x7d]]\x7d").toList

theorem plainTree_isDocument {exports : List (Text × JsonTree)} {text document : Text}
    (h : ItemsText (MemberText JsonTree.IsWritten) true exports text)
    (hd : document = '\x7b' :: '"' :: ("patterns".toList ++ ['"', ':', '[', '[', '"', 'a', '"', ',',
      '"', 'b', '"', ',', 'n', 'u', 'l', 'l', ',', '\x7b'] ++ text ++ ['\x7d', ']', ']', '\x7d'])) :
    (plainTree exports).IsDocument document := by
  have hblank : IsBlank [] := isBlank_nil
  have hpattern := JsonTree.IsWritten.list <|
    .first hblank (isWritten_self ['a'] (by decide)) <|
    .next hblank hblank (isWritten_self ['b'] (by decide)) <|
    .next hblank hblank .null <| .next hblank hblank (.object h) <| .nil hblank
  have hpatterns := memberText_self "patterns".toList (by decide +kernel) <|
    .list <| .first hblank hpattern <| .nil hblank
  have htree : (plainTree exports).IsWritten _ := .object (.first hblank hpatterns (.nil hblank))
  refine ⟨[], _, [], hblank, htree, hblank, ?_⟩
  simp only [hd, List.cons_append, List.nil_append, List.append_assoc, List.append_nil]

def plainExports : List (Text × JsonTree) :=
  [("suffixes".toList, .list [])]

def refusedExports : List (Text × JsonTree) :=
  ("transformImportName".toList, .string "lowercase".toList) :: plainExports

theorem plainDocument_text : (plainTree plainExports).IsDocument plainDocument := by
  have hsuffixes := memberText_self "suffixes".toList (by decide +kernel) (.list (.nil isBlank_nil))
  have h : ItemsText (MemberText JsonTree.IsWritten) true plainExports _ :=
    .first isBlank_nil hsuffixes (.nil isBlank_nil)
  exact plainTree_isDocument h (by decide +kernel)

theorem refusedDocument_text : (plainTree refusedExports).IsDocument refusedDocument := by
  have htransform := memberText_self "transformImportName".toList (by decide +kernel)
    (isWritten_self "lowercase".toList (by decide +kernel))
  have hsuffixes := memberText_self "suffixes".toList (by decide +kernel) (.list (.nil isBlank_nil))
  have h : ItemsText (MemberText JsonTree.IsWritten) true refusedExports _ :=
    .first isBlank_nil htransform (.next isBlank_nil isBlank_nil hsuffixes (.nil isBlank_nil))
  exact plainTree_isDocument h (by decide +kernel)

theorem plainTree_options : OptionsTree
    ⟨[⟨['a'], ['b'], none, some ⟨[], none, none⟩⟩]⟩ (plainTree plainExports) := by
  have hexports : NamedExportsTree ⟨[], none, none⟩ (.object plainExports) := by
    refine ⟨rfl, .object (by decide +kernel) ?_ ?_⟩
    · exact List.forall_mem_singleton.mpr ⟨"suffixes", by decide, rfl, .list .nil⟩
    · show ∀ name ∈ ["suffixes", "customPattern"], _
      simp only [List.forall_mem_cons]
      exact ⟨absurd (by decide +kernel), fun _ => ⟨rfl, rfl⟩, nofun⟩
  have hpattern : PatternTree ⟨['a'], ['b'], none, some ⟨[], none, none⟩⟩ (.list [_, _, .null, _]) :=
    .list (.next rfl (.next rfl (.next .none (.next (.some hexports) (.done nofun)))))
  refine ⟨by decide, .object (by simp) ?_ ?_⟩
  · exact List.forall_mem_singleton.mpr ⟨"patterns", by decide, rfl, .list (.cons hpattern .nil)⟩
  · exact List.forall_mem_singleton.mpr (absurd (by decide +kernel))

theorem refusedDocument_mutated :
    MutatedDocument (plainTree plainExports) plainDocument refusedDocument := by
  have hunknown : ∀ name ∈ namedExportsKind.names, name.toList ≠ "transformImportName".toList := by
    decide +kernel
  have hexports : NamedExportsMutation (.object ([] ++ plainExports)) (.object refusedExports) :=
    .record (.unknown _ hunknown)
  have hplace : FieldReplaced patternKind.names "namedExports" (.object plainExports)
      (.object refusedExports) (plainPattern plainExports) (plainPattern refusedExports) :=
    @FieldReplaced.list _ _ _ _ [.string ['a'], .string ['b'], .null] [] rfl
  have hpatterns : FieldReplaced optionsKind.names "patterns" (.list ([] ++ [plainPattern _]))
      (.list ([] ++ [plainPattern _])) (plainTree plainExports) (plainTree refusedExports) :=
    @FieldReplaced.object _ _ _ _ [] []
  exact .tree (.pattern (.namedExports hexports hplace) hpatterns) refusedDocument_text

/-- The notice of the pattern is lost with the options. -/
theorem refusedDocument_refused :
    (plainTree plainExports).IsDocument plainDocument ∧
      readOptions plainDocument = .ok ⟨[⟨['a'], ['b'], none, some ⟨[], none, none⟩⟩]⟩ ∧
      MutatedDocument (plainTree plainExports) plainDocument refusedDocument ∧
      (∃ problem, readOptions refusedDocument = .error problem) ∧
      optionsNotices refusedDocument = [] := by
  have hread := (readOptions_iff plainDocument_text _).mpr plainTree_options
  exact ⟨plainDocument_text, hread, refusedDocument_mutated,
    readOptions_mutated plainDocument_text hread refusedDocument_mutated⟩

end DirectImports
