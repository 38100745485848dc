import DirectImports.Proofs.JsonRecords

/-! How a record may be written: as an object or as a list, with fields left out where they may be.
A reader that follows a writing gives a record for just the values that are written so. -/

namespace DirectImports

/-- The fields of a record in order, what each may be written as, and which may be left out. -/
structure RecordWriting where
  names : List String
  Has : String → JsonTree → Prop
  MayLack : String → Prop

namespace RecordWriting

variable (writing : RecordWriting)

/-- The fields of a record one after the other, without some of the last ones. -/
inductive Lists : List String → List JsonTree → Prop
  | done {names : List String} (h : ∀ name ∈ names, writing.MayLack name) : Lists names []
  | next {name : String} {names : List String} {value : JsonTree} {values : List JsonTree}
      (h : writing.Has name value) (later : Lists names values) :
      Lists (name :: names) (value :: values)

inductive Allows : JsonTree → Prop
  | object {members : List (Text × JsonTree)} (distinct : (members.map Prod.fst).Nodup)
      (has : ∀ member ∈ members,
        ∃ name ∈ writing.names, name.toList = member.1 ∧ writing.Has name member.2)
      (lacks : ∀ name ∈ writing.names, name.toList ∉ members.map Prod.fst →
        writing.MayLack name) : Allows (.object members)
  | list {values : List JsonTree} (h : writing.Lists writing.names values) :
      Allows (.list values)

end RecordWriting

namespace JsonRecord

variable {δ α : Type}

/-- How a reader follows the writings of records. A draft that fits a record has no other values
than it; the empty one fits each record that can be written. -/
structure Follows (record : JsonRecord δ α) (sets : JsonField δ → δ → δ → JsonTree → Prop)
    (fits : δ → α → Prop) (writing : α → RecordWriting) : Prop where
  names : ∀ a, (writing a).names = record.fields.map JsonField.name
  distinct : (record.fields.map JsonField.name).Nodup
  optional : ∀ a, ∀ field ∈ record.fields,
    (writing a).MayLack field.name → field.isRequired = false
  unset : ∀ field ∈ record.fields, field.isSet record.empty = false
  marks : ∀ field ∈ record.fields, ∀ draft next tree, sets field draft next tree →
    ∀ other ∈ record.fields,
      other.isSet next = true ↔ other.isSet draft = true ∨ other.name = field.name
  fills : ∀ field ∈ record.fields, ∀ draft, field.isSet draft = false → ∀ a tree,
    (∃ next, sets field draft next tree ∧ fits next a) ↔
      fits draft a ∧ (writing a).Has field.name tree
  finish : ∀ draft a, record.finish draft = some a ↔ fits draft a ∧
    ∀ field ∈ record.fields, field.isSet draft = false → (writing a).MayLack field.name

theorem field?_eq {record : JsonRecord δ α} {key : Text} {field : JsonField δ}
    (h : record.field? key = some field) : field ∈ record.fields ∧ field.name.toList = key := by
  have hname := List.find?_some h
  exact ⟨List.mem_of_find?_eq_some h, beq_iff_eq.mp hname⟩

theorem field?_isSome {record : JsonRecord δ α} {field : JsonField δ}
    (h : field ∈ record.fields) :
    ∃ found, record.field? field.name.toList = some found ∧ found.name = field.name := by
  have hsome : (record.field? field.name.toList).isSome = true := by
    refine List.find?_isSome.mpr ⟨field, h, beq_self_eq_true _⟩
  obtain ⟨found, hfound⟩ := Option.isSome_iff_exists.mp hsome
  exact ⟨found, hfound, String.toList_inj.mp (field?_eq hfound).2⟩

namespace Follows

variable {record : JsonRecord δ α} {sets : JsonField δ → δ → δ → JsonTree → Prop}
  {fits : δ → α → Prop} {writing : α → RecordWriting}

/-- A field is free after another one was set if it was before and is not that one. -/
theorem free_iff (h : record.Follows sets fits writing) {field other : JsonField δ}
    {draft next : δ} {value : JsonTree} (hv : sets field draft next value)
    (hfield : field ∈ record.fields) (hother : other ∈ record.fields) :
    other.isSet next = false ↔ other.isSet draft = false ∧ other.name ≠ field.name := by
  rw [← Bool.not_eq_true, h.marks field hfield draft next value hv other hother, not_or,
    Bool.not_eq_true]

/-- The members that were read: no two have one key, each is a member of every record that the draft
fits in the end, and the fields that are set are those before them and theirs. -/
theorem of_members (h : record.Follows sets fits writing) {draft last : δ}
    {members : List (Text × JsonTree)} (hm : MembersSet record sets draft members last) {a : α}
    (hfits : fits last a) :
    fits draft a ∧ (members.map Prod.fst).Nodup ∧
      (∀ member ∈ members, ∃ field, record.field? member.1 = some field ∧
        field.isSet draft = false ∧ (writing a).Has field.name member.2) ∧
      ∀ field ∈ record.fields, field.isSet last = true ↔
        field.isSet draft = true ∨ field.name.toList ∈ members.map Prod.fst := by
  induction hm with
  | nil => exact ⟨hfits, .nil, nofun, fun field _ => by simp⟩
  | @cons draft next last key value members field hf hs hv _ ih =>
    obtain ⟨hnext, hnodup, hhas, hset⟩ := ih hfits
    obtain ⟨hmem, hkey⟩ := field?_eq hf
    obtain ⟨hdraft, hvalue⟩ := (h.fills field hmem draft hs a value).mp ⟨next, hv, hnext⟩
    refine ⟨hdraft, List.nodup_cons.mpr ⟨fun hin => ?_, hnodup⟩, ?_, ?_⟩
    · -- A second member with this key would have to be set in a draft where its field is.
      obtain ⟨member, hm, hmember⟩ := List.mem_map.mp hin
      obtain ⟨other, hother, hunset, -⟩ := hhas member hm
      rw [hmember] at hother
      obtain rfl := Option.some.inj (hf.symm.trans hother)
      exact ((h.free_iff hv hmem hmem).mp hunset).2 rfl
    · intro member hm
      rcases List.mem_cons.mp hm with rfl | hm
      · exact ⟨field, hf, hs, hvalue⟩
      · obtain ⟨other, hother, hunset, hhas⟩ := hhas member hm
        exact ⟨other, hother, ((h.free_iff hv hmem (field?_eq hother).1).mp hunset).1, hhas⟩
    · intro other hother
      rw [hset other hother, h.marks field hmem draft next value hv other hother, List.map_cons,
        List.mem_cons, or_assoc]
      have hname : other.name = field.name ↔ other.name.toList = key := by
        rw [← hkey, String.toList_inj]
      rw [hname]

theorem members (h : record.Follows sets fits writing) {a : α}
    {members : List (Text × JsonTree)} (hnodup : (members.map Prod.fst).Nodup) {draft : δ}
    (hfits : fits draft a)
    (hhas : ∀ member ∈ members, ∃ field, record.field? member.1 = some field ∧
      field.isSet draft = false ∧ (writing a).Has field.name member.2) :
    ∃ last, MembersSet record sets draft members last ∧ fits last a := by
  induction members generalizing draft with
  | nil => exact ⟨draft, .nil, hfits⟩
  | cons member members ih =>
    obtain ⟨hnot, hnodup⟩ := List.nodup_cons.mp hnodup
    obtain ⟨⟨field, hf, hs, hvalue⟩, hhas⟩ := List.forall_mem_cons.mp hhas
    obtain ⟨hmem, hkey⟩ := field?_eq hf
    obtain ⟨next, hv, hnext⟩ := (h.fills field hmem draft hs a member.2).mpr ⟨hfits, hvalue⟩
    have hlater : ∀ member ∈ members, ∃ field, record.field? member.1 = some field ∧
        field.isSet next = false ∧ (writing a).Has field.name member.2 := by
      intro other hm
      obtain ⟨found, hfound, hunset, hhas⟩ := hhas other hm
      obtain ⟨hmem', hkey'⟩ := field?_eq hfound
      refine ⟨found, hfound, (h.free_iff hv hmem hmem').mpr ⟨hunset, fun hname => ?_⟩, hhas⟩
      refine hnot (List.mem_map.mpr ⟨other, hm, ?_⟩)
      rw [← hkey, ← hkey', hname]
    obtain ⟨last, hset, hlast⟩ := ih hnodup hnext hlater
    exact ⟨last, .cons hf hs hv hset, hlast⟩

theorem of_values (h : record.Follows sets fits writing) {fields : List (JsonField δ)}
    {draft last : δ} {values : List JsonTree} (hv : ValuesSet sets fields draft values last)
    (hmem : ∀ field ∈ fields, field ∈ record.fields)
    (hnodup : (fields.map JsonField.name).Nodup)
    (hunset : ∀ field ∈ fields, field.isSet draft = false) {a : α} (hfits : fits last a)
    (hlacks : ∀ field ∈ record.fields, field.isSet last = false →
      (writing a).MayLack field.name) :
    fits draft a ∧ (writing a).Lists (fields.map JsonField.name) values := by
  induction hv with
  | done =>
    refine ⟨hfits, .done fun name hname => ?_⟩
    obtain ⟨field, hfield, rfl⟩ := List.mem_map.mp hname
    exact hlacks field (hmem field hfield) (hunset field hfield)
  | @next field fields draft next last value values hv _ ih =>
    obtain ⟨hfield, hfields⟩ := List.forall_mem_cons.mp hmem
    obtain ⟨hnot, hnodup⟩ := List.nodup_cons.mp hnodup
    obtain ⟨hfree, hothers⟩ := List.forall_mem_cons.mp hunset
    have hlater : ∀ other ∈ fields, other.isSet next = false := by
      intro other hother
      refine (h.free_iff hv hfield (hfields other hother)).mpr ⟨hothers other hother, ?_⟩
      exact fun hname => hnot (List.mem_map.mpr ⟨other, hother, hname⟩)
    obtain ⟨hnext, hlists⟩ := ih hfields hnodup hlater hfits hlacks
    obtain ⟨hdraft, hvalue⟩ := (h.fills field hfield draft hfree a value).mp ⟨next, hv, hnext⟩
    exact ⟨hdraft, .next hvalue hlists⟩

theorem values (h : record.Follows sets fits writing) {a : α} {fields : List (JsonField δ)}
    {draft : δ} {values : List JsonTree}
    (hl : (writing a).Lists (fields.map JsonField.name) values)
    (hmem : ∀ field ∈ fields, field ∈ record.fields)
    (hnodup : (fields.map JsonField.name).Nodup)
    (hunset : ∀ field ∈ fields, field.isSet draft = false) (hfits : fits draft a) :
    ∃ last, ValuesSet sets fields draft values last ∧ fits last a ∧
      (∀ field ∈ record.fields, field.isSet draft = true → field.isSet last = true) ∧
      ∀ field ∈ fields, field.isSet last = false → (writing a).MayLack field.name := by
  induction fields generalizing draft values with
  | nil =>
    cases hl with
    | done => exact ⟨draft, .done nofun, hfits, fun _ _ => id, nofun⟩
  | cons field fields ih =>
    obtain ⟨hfield, hfields⟩ := List.forall_mem_cons.mp hmem
    obtain ⟨hnot, hnodup⟩ := List.nodup_cons.mp hnodup
    obtain ⟨hfree, hothers⟩ := List.forall_mem_cons.mp hunset
    cases hl with
    | done hlack =>
      have hlacks : ∀ other ∈ field :: fields, (writing a).MayLack other.name :=
        fun other hother => hlack other.name (List.mem_map_of_mem hother)
      refine ⟨draft, .done fun other hother => ?_, hfits, fun _ _ => id, fun other hother _ =>
        hlacks other hother⟩
      exact h.optional a other (hmem other hother) (hlacks other hother)
    | @next _ _ value values hvalue hlater =>
      obtain ⟨next, hv, hnext⟩ := (h.fills field hfield draft hfree a value).mpr ⟨hfits, hvalue⟩
      have hmarks := h.marks field hfield draft next value hv
      have hlater' : ∀ other ∈ fields, other.isSet next = false := by
        intro other hother
        refine (h.free_iff hv hfield (hfields other hother)).mpr ⟨hothers other hother, ?_⟩
        exact fun hname => hnot (List.mem_map.mpr ⟨other, hother, hname⟩)
      obtain ⟨last, hset, hlast, hkeeps, hlacks⟩ := ih hlater hfields hnodup hlater' hnext
      refine ⟨last, .next hv hset, hlast, fun other hother hs => ?_, ?_⟩
      · exact hkeeps other hother ((hmarks other hother).mpr (.inl hs))
      · refine List.forall_mem_cons.mpr ⟨fun hs => ?_, hlacks⟩
        have hkept := hkeeps field hfield ((hmarks field hfield).mpr (.inr rfl))
        exact (Bool.false_ne_true (hs.symm.trans hkept)).elim

theorem completes (h : record.Follows sets fits writing) {last : δ} {a : α} (hfits : fits last a)
    (hlacks : ∀ field ∈ record.fields, field.isSet last = false →
      (writing a).MayLack field.name) : record.Completes last a := by
  refine ⟨fun field hmem hr => ?_, (h.finish last a).mpr ⟨hfits, hlacks⟩⟩
  by_contra hs
  have hoptional := h.optional a field hmem (hlacks field hmem (eq_false_of_ne_true hs))
  exact Bool.false_ne_true (hoptional.symm.trans hr)

theorem allows (h : record.Follows sets fits writing) {a : α} {tree : JsonTree} {draft : δ}
    (hset : TreeSets record sets tree draft) (hdone : record.Completes draft a) :
    fits record.empty a ∧ (writing a).Allows tree := by
  obtain ⟨-, hfinish⟩ := hdone
  obtain ⟨hfits, hlacks⟩ := (h.finish draft a).mp hfinish
  cases hset with
  | object hm =>
    obtain ⟨hempty, hnodup, hhas, hset⟩ := h.of_members hm hfits
    refine ⟨hempty, .object hnodup (fun member hm => ?_) (fun name hname hnot => ?_)⟩
    · obtain ⟨field, hf, -, hvalue⟩ := hhas member hm
      obtain ⟨hmem, hkey⟩ := field?_eq hf
      refine ⟨field.name, ?_, hkey, hvalue⟩
      rw [h.names a]
      exact List.mem_map_of_mem hmem
    · rw [h.names a] at hname
      obtain ⟨field, hmem, rfl⟩ := List.mem_map.mp hname
      refine hlacks field hmem (eq_false_of_ne_true fun hs => ?_)
      rcases (hset field hmem).mp hs with hs | hin
      · exact Bool.false_ne_true ((h.unset field hmem).symm.trans hs)
      · exact hnot hin
  | list hv =>
    obtain ⟨hempty, hlists⟩ := h.of_values hv (fun _ => id) h.distinct h.unset hfits hlacks
    rw [← h.names a] at hlists
    exact ⟨hempty, .list hlists⟩

theorem sets_of_allows (h : record.Follows sets fits writing) {a : α} {tree : JsonTree}
    (hempty : fits record.empty a) (hallows : (writing a).Allows tree) :
    ∃ draft, TreeSets record sets tree draft ∧ record.Completes draft a := by
  cases hallows with
  | @object members hnodup hhas hlacks =>
    have hfree : ∀ member ∈ members, ∃ field, record.field? member.1 = some field ∧
        field.isSet record.empty = false ∧ (writing a).Has field.name member.2 := by
      intro member hm
      obtain ⟨name, hname, hkey, hvalue⟩ := hhas member hm
      rw [h.names a] at hname
      obtain ⟨field, hmem, rfl⟩ := List.mem_map.mp hname
      obtain ⟨found, hfound, hsame⟩ := field?_isSome hmem
      rw [hkey] at hfound
      refine ⟨found, hfound, h.unset found (field?_eq hfound).1, ?_⟩
      rw [hsame]
      exact hvalue
    obtain ⟨last, hset, hlast⟩ := h.members hnodup hempty hfree
    obtain ⟨-, -, -, hmarked⟩ := h.of_members hset hlast
    have hlack : ∀ field ∈ record.fields, field.isSet last = false →
        (writing a).MayLack field.name := by
      intro field hmem hunset
      refine hlacks field.name ?_ fun hin => ?_
      · rw [h.names a]
        exact List.mem_map_of_mem hmem
      · exact Bool.false_ne_true (hunset.symm.trans ((hmarked field hmem).mpr (.inr hin)))
    exact ⟨last, .object hset, h.completes hlast hlack⟩
  | list hl =>
    rw [h.names a] at hl
    obtain ⟨last, hset, hlast, -, hlack⟩ :=
      h.values hl (fun _ => id) h.distinct h.unset hempty
    exact ⟨last, .list hset, h.completes hlast hlack⟩

theorem decodes (h : record.Follows sets fits writing)
    (hd : ∀ field ∈ record.fields, ∀ draft, Decodes (field.read draft) (sets field draft)) :
    Decodes record.read fun a tree => fits record.empty a ∧ (writing a).Allows tree := by
  intro tree text blank hw hb rest a rest'
  rw [read_decodes hd hw hb]
  constructor
  · rintro ⟨⟨draft, hset, hdone⟩, hrest⟩
    exact ⟨h.allows hset hdone, hrest⟩
  · rintro ⟨⟨hempty, hallows⟩, hrest⟩
    exact ⟨h.sets_of_allows hempty hallows, hrest⟩

end Follows

end JsonRecord

/-- What is known of a value while it is read is right. -/
def Agrees {β : Type} (known : Option β) (value : β) : Prop :=
  ∀ b, known = some b → b = value

@[simp] theorem agrees_none {β : Type} (value : β) : Agrees none value :=
  nofun

@[simp] theorem agrees_some {β : Type} {b value : β} : Agrees (some b) value ↔ b = value :=
  ⟨fun h => h b rfl, fun h _ hb => (Option.some.inj hb).symm.trans h⟩

theorem eq_some_iff_agrees {β : Type} {known : Option β} {value : β} :
    known = some value ↔ Agrees known value ∧ known ≠ none := by
  cases known <;> simp

theorem join_eq_iff_agrees {β : Type} {known : Option (Option β)} {value : Option β} :
    known.join = value ↔ Agrees known value ∧ (known = none → value = none) := by
  cases known <;> simp [eq_comm]

/-- A field is filled by the one value that the record has in its place. -/
theorem fills_iff {β δ : Type} {means : β → JsonTree → Prop} {tree : JsonTree} {put : β → δ}
    {value : β} {fits : δ → Prop} {before : Prop} (hput : ∀ b, fits (put b) ↔ before ∧ b = value) :
    (∃ next, (∃ b, means b tree ∧ next = put b) ∧ fits next) ↔ before ∧ means value tree := by
  constructor
  · rintro ⟨_, ⟨b, hmeans, rfl⟩, hfits⟩
    obtain ⟨hbefore, rfl⟩ := (hput b).mp hfits
    exact ⟨hbefore, hmeans⟩
  · rintro ⟨hbefore, hmeans⟩
    exact ⟨put value, ⟨value, hmeans, rfl⟩, (hput value).mpr ⟨hbefore, rfl⟩⟩

end DirectImports
