import DirectImports.Configuration
import DirectImports.Proofs.DirectPath
import DirectImports.Proofs.FileTree
import DirectImports.Proofs.OptionsText

/-! Options that are read from a text. There are no custom functions among them, so that a run may
only be given up because of options that a configuration comes with. -/

namespace DirectImports

namespace JsonReader

variable {α β : Type} {kept : α → Prop}

/-- Whatever text there is, a value that is read has the property. -/
def Yields (read : JsonReader α) (kept : α → Prop) : Prop :=
  ∀ text a rest, read text = .ok (a, rest) → kept a

theorem Yields.pure {a : α} (h : kept a) : Yields (Pure.pure a) kept := by
  intro text b rest hb
  obtain ⟨rfl, -⟩ := Prod.mk.inj (pure_eq_ok.mp hb)
  exact h

theorem Yields.throw (problem : JsonProblem) : Yields (throw problem : JsonReader α) kept :=
  nofun

theorem Yields.bind {wanted : β → Prop} {read : JsonReader α} {next : α → JsonReader β}
    (hread : read.Yields kept) (hnext : ∀ a, kept a → (next a).Yields wanted) :
    (read >>= next).Yields wanted := by
  intro text b rest hb
  obtain ⟨a, behind, ha, hb⟩ := bind_eq_ok.mp hb
  exact hnext a (hread _ _ _ ha) _ _ _ hb

/-- What is known of the rest of a reader whatever it begins with. -/
theorem Yields.after {wanted : β → Prop} {read : JsonReader α} {next : α → JsonReader β}
    (hnext : ∀ a, (next a).Yields wanted) : (read >>= next).Yields wanted := by
  intro text b rest hb
  obtain ⟨a, behind, -, hb⟩ := bind_eq_ok.mp hb
  exact hnext a _ _ _ hb

theorem Yields.ite {test : Prop} [Decidable test] {yes no : JsonReader α} (hyes : yes.Yields kept)
    (hno : no.Yields kept) : (if test then yes else no).Yields kept := by
  split
  · exact hyes
  · exact hno

theorem mismatch_yields (expected : ExpectedType) (c : Char) :
    (mismatch expected c : JsonReader α).Yields kept :=
  .after fun _ => .throw _

theorem readOptional_yields {read : JsonReader α} (h : read.Yields kept) :
    (readOptional read).Yields fun value => ∀ a, value = some a → kept a :=
  .after fun _ => .ite (.after fun _ => .after fun _ => .pure nofun) <|
    h.bind fun _ ha => .pure fun _ hb => Option.some.inj hb ▸ ha

theorem readValues_yields {read : JsonReader α} (h : read.Yields kept) (fuel : Nat)
    (isFirst : Bool) :
    (readValues read fuel isFirst).Yields fun values => ∀ a ∈ values, kept a := by
  induction fuel generalizing isFirst with
  | zero => exact .throw _
  | succ fuel ih =>
    refine .after fun more => .ite ?_ (.pure nofun)
    refine h.bind fun a ha => (ih false).bind fun values hvalues => .pure ?_
    exact List.forall_mem_cons.mpr ⟨ha, hvalues⟩

theorem readList_yields {read : JsonReader α} (h : read.Yields kept) :
    (readList read).Yields fun values => ∀ a ∈ values, kept a := by
  refine .after fun c => .ite ?_ (mismatch_yields _ _)
  refine .after fun _ => .after fun text => ?_
  refine (readValues_yields h _ _).bind fun values hvalues => ?_
  exact .after fun _ => .pure hvalues

end JsonReader

open JsonReader

namespace JsonRecord

variable {δ α : Type} {record : JsonRecord δ α} {fits : δ → Prop}

theorem readMembers_yields
    (hread : ∀ field ∈ record.fields, ∀ draft, fits draft → (field.read draft).Yields fits)
    (fuel : Nat) (isFirst : Bool) {draft : δ} (h : fits draft) :
    (record.readMembers fuel isFirst draft).Yields fits := by
  induction fuel generalizing isFirst draft with
  | zero => exact .throw _
  | succ fuel ih =>
    refine .after fun key => ?_
    cases key with
    | none => exact .pure h
    | some key =>
      simp only
      cases hf : record.field? key with
      | none => exact .throw _
      | some field =>
        have hfield : field ∈ record.fields := List.mem_of_find?_eq_some hf
        refine .ite (.after fun _ => ?_) ?_
        · exact .after fun _ => (hread field hfield draft h).bind fun next hn => ih false hn
        · exact .after fun _ => (hread field hfield draft h).bind fun next hn => ih false hn

theorem readInOrder_yields {fields : List (JsonField δ)}
    (hread : ∀ field ∈ fields, ∀ draft, fits draft → (field.read draft).Yields fits)
    (length : Nat) {draft : δ} (h : fits draft) :
    (record.readInOrder fields length draft).Yields fits := by
  induction fields generalizing length draft with
  | nil => exact .pure h
  | cons field fields ih =>
    obtain ⟨hfield, hfields⟩ := List.forall_mem_cons.mp hread
    refine .after fun more => .ite ?_ (.ite (.throw _) (ih hfields _ h))
    exact (hfield draft h).bind fun next hn => ih hfields _ hn

/-- What every field keeps of a draft is known of the draft that a record is made of. -/
theorem read_yields {kept : α → Prop}
    (hread : ∀ field ∈ record.fields, ∀ draft, fits draft → (field.read draft).Yields fits)
    (hempty : fits record.empty)
    (hfinish : ∀ draft a, fits draft → record.finish draft = some a → kept a) :
    record.read.Yields kept := by
  have hcomplete (draft : δ) (h : fits draft) : (record.complete draft).Yields kept := by
    unfold complete
    split
    · exact .throw _
    · cases hf : record.finish draft with
      | none => exact .throw _
      | some a => exact .pure (hfinish draft a h hf)
  refine .after fun c => .ite ?_ (.ite ?_ (mismatch_yields _ _))
  · refine .after fun _ => .after fun _ => ?_
    refine (readMembers_yields hread _ _ hempty).bind fun draft hd => ?_
    exact (hcomplete draft hd).bind fun a ha => .after fun _ => .pure ha
  · refine .after fun _ => (readInOrder_yields hread _ hempty).bind fun draft hd => ?_
    exact (hcomplete draft hd).bind fun a ha => .after fun _ => .pure ha

end JsonRecord

theorem ofToken_ne_custom (token : Text) (transform : Text → Option Text) :
    NameTransform.ofToken token ≠ .custom transform := by
  unfold NameTransform.ofToken
  split
  · nofun
  split
  · nofun
  split
  · nofun
  · nofun

theorem readTransform_yields :
    readTransform.Yields fun transform => ∀ custom, transform ≠ .custom custom :=
  .after fun token => .pure (ofToken_ne_custom token)

theorem namedExports_yields :
    namedExportsRecord.read.Yields fun exports => exports.transform = none := by
  have hread : ∀ field ∈ namedExportsRecord.fields, ∀ draft, True →
      (field.read draft).Yields fun _ => True := fun _ _ _ _ _ _ _ _ => trivial
  refine JsonRecord.read_yields hread trivial fun draft exports _ h => ?_
  obtain ⟨suffixes, -, rfl⟩ := Option.map_eq_some_iff.mp h
  rfl

/-- A draft of a pattern without functions. -/
structure BarrelPatternDraft.HasNoFunctions (draft : BarrelPatternDraft) : Prop where
  transform : ∀ transform, draft.transformImportName = some (some transform) →
    ∀ custom, transform ≠ .custom custom
  exports : ∀ exports, draft.namedExports = some (some exports) → exports.transform = none

theorem barrelPattern_yields : barrelPatternRecord.read.Yields BarrelPattern.HasNoFunctions := by
  have hread : ∀ field ∈ barrelPatternRecord.fields, ∀ draft, draft.HasNoFunctions →
      (field.read draft).Yields BarrelPatternDraft.HasNoFunctions := by
    simp only [barrelPatternRecord, List.forall_mem_cons]
    refine ⟨fun draft h => ?_, fun draft h => ?_, fun draft h => ?_, fun draft h => ?_,
      List.forall_mem_nil _⟩
    · exact .after fun _ => .pure ⟨h.transform, h.exports⟩
    · exact .after fun _ => .pure ⟨h.transform, h.exports⟩
    · refine (readOptional_yields readTransform_yields).bind fun value hvalue => .pure ?_
      exact ⟨fun transform ht => hvalue transform (Option.some.inj ht), h.exports⟩
    · refine (readOptional_yields namedExports_yields).bind fun value hvalue => .pure ?_
      exact ⟨h.transform, fun exports he => hvalue exports (Option.some.inj he)⟩
  have hempty : barrelPatternRecord.empty.HasNoFunctions := by
    constructor
    · intro transform ht
      cases ht
    · intro exports he
      cases he
  refine JsonRecord.read_yields hread hempty fun draft pattern h hfinish => ?_
  obtain ⟨barrel, -, hfinish⟩ := Option.bind_eq_some_iff.mp hfinish
  obtain ⟨template, -, hfinish⟩ := Option.bind_eq_some_iff.mp hfinish
  obtain rfl := Option.some.inj hfinish
  refine ⟨fun custom ht => ?_, fun exports he => ?_⟩
  · exact h.transform _ (Option.join_eq_some_iff.mp ht) custom rfl
  · exact h.exports exports (Option.join_eq_some_iff.mp he)

def RuleOptionsDraft.HasNoFunctions (draft : RuleOptionsDraft) : Prop :=
  ∀ patterns, draft.patterns = some patterns → ∀ pattern ∈ patterns, pattern.HasNoFunctions

theorem ruleOptions_yields : ruleOptionsRecord.read.Yields RuleOptions.HasNoFunctions := by
  have hread : ∀ field ∈ ruleOptionsRecord.fields, ∀ draft, draft.HasNoFunctions →
      (field.read draft).Yields RuleOptionsDraft.HasNoFunctions := by
    simp only [ruleOptionsRecord, List.forall_mem_cons]
    refine ⟨fun draft _ => ?_, List.forall_mem_nil _⟩
    refine (readList_yields barrelPattern_yields).bind fun patterns hpatterns => .pure ?_
    intro found hf
    obtain rfl := Option.some.inj hf
    exact hpatterns
  have hempty : ruleOptionsRecord.empty.HasNoFunctions := by
    intro patterns hp
    cases hp
  refine JsonRecord.read_yields hread hempty fun draft options h hfinish => ?_
  obtain ⟨patterns, hp, rfl⟩ := Option.map_eq_some_iff.mp hfinish
  exact h patterns hp

/-- No text gives options with a custom function. -/
theorem readOptions_hasNoFunctions {text : Text} {options : RuleOptions}
    (h : readOptions text = .ok options) : options.HasNoFunctions := by
  obtain ⟨rest, hread, -⟩ := readJson_eq_ok.mp (readOptions_eq_ok.mp h).1
  exact ruleOptions_yields _ _ _ hread

/-- The custom functions that a configuration comes with have an answer for every name. -/
def Configuration.ReturnsNormally (configuration : Configuration) : Prop :=
  ∀ options, configuration.options = some options → options.ReturnsNormally

theorem findOptions_returnsNormally {configuration : Configuration} {system : FileSystem}
    {root : Text} {options : RuleOptions} (hn : configuration.ReturnsNormally)
    (h : configuration.findOptions system root = .ok options) : options.ReturnsNormally := by
  unfold Configuration.findOptions at h
  split at h
  next given hg =>
    obtain rfl := Except.ok.inj h
    exact hn _ hg
  next =>
    obtain ⟨path, -, h⟩ := except_bind_eq_ok.mp h
    obtain ⟨text, -, h⟩ := except_bind_eq_ok.mp h
    cases hr : readOptions text with
    | error problem => simp [hr, Except.mapError] at h
    | ok found =>
      rw [hr] at h
      obtain rfl := Except.ok.inj h
      exact (readOptions_hasNoFunctions hr).returnsNormally

end DirectImports
