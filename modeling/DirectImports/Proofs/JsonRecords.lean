import DirectImports.Proofs.JsonText

/-! Records read from JSON texts. A record is read from any writing of an object with its members in
any order, or of a list with its fields in their own, and from nothing else. -/

namespace DirectImports

theorem ItemsText.nextKey {members : List (Text × JsonTree)} {key : Text} {value : JsonTree}
    {isFirst : Bool} {text : Text}
    (h : ItemsText (MemberText JsonTree.IsWritten) isFirst ((key, value) :: members) text) :
    ∃ blank written others, IsBlank blank ∧ value.IsWritten written ∧
      ItemsText (MemberText JsonTree.IsWritten) false members others ∧
      others.length < text.length ∧
      ∀ rest, ∃ colon, JsonReader.nextKey isFirst (text ++ rest) = .ok (some key, colon) ∧
        JsonReader.readColon colon = .ok ((), blank ++ (written ++ (others ++ rest))) := by
  have hquote : JsonReader.isSpace '"' = false := rfl
  have hcomma : JsonReader.isSpace ',' = false := rfl
  have hcolon : JsonReader.isSpace ':' = false := rfl
  have hread {written blank : Text} (hk : StringText key written) (hb : IsBlank blank)
      (after : Text) : ∃ colon,
      (JsonReader.readQuoted >>= fun key => pure (some key))
        ('"' :: (written ++ '"' :: (blank ++ ':' :: after))) = .ok (some key, colon) ∧
      JsonReader.readColon colon = .ok ((), after) := by
    refine ⟨blank ++ ':' :: after, ?_, ?_⟩
    · rw [JsonReader.bind_of_ok (JsonReader.readQuoted_written hk _)]
      rfl
    · rw [JsonReader.readColon, JsonReader.bind_of_ok (JsonReader.peek_blank hb hcolon _)]
      rfl
  cases h with
  | @first gap _ others _ _ hg hw later =>
    cases hw with
    | @member _ key' blank blank' written _ hk hb hb' hw =>
      refine ⟨blank', written, others, hb', hw, later, ?_, fun rest => ?_⟩
      · simp only [List.length_append, List.length_cons]
        omega
      · simp only [List.append_assoc, List.cons_append]
        rw [JsonReader.nextKey, JsonReader.bind_of_ok (JsonReader.peek_blank hg hquote _)]
        exact hread hk hb _
  | @next gap gap' _ others _ _ hg hg' hw later =>
    cases hw with
    | @member _ key' blank blank' written _ hk hb hb' hw =>
      refine ⟨blank', written, others, hb', hw, later, ?_, fun rest => ?_⟩
      · simp only [List.length_append, List.length_cons]
        omega
      · simp only [List.append_assoc, List.cons_append]
        rw [JsonReader.nextKey, JsonReader.bind_of_ok (JsonReader.peek_blank hg hcomma _)]
        show ∃ colon, (JsonReader.skip >>= _) _ = _ ∧ _
        rw [JsonReader.bind_of_ok (JsonReader.skip_cons _ _),
          JsonReader.bind_of_ok (JsonReader.peek_blank hg' hquote _)]
        exact hread hk hb _

theorem ItemsText.isBlank {ι : Type} {writes : ι → Text → Prop} {isFirst : Bool} {text : Text}
    (h : ItemsText writes isFirst [] text) : IsBlank text := by
  cases h with
  | nil hb => exact hb

theorem nextKey_end {blank : Text} (isFirst : Bool) (hb : IsBlank blank) (rest : Text) :
    JsonReader.nextKey isFirst (blank ++ '\x7d' :: rest) = .ok (none, '\x7d' :: rest) := by
  have hclose : JsonReader.isSpace '\x7d' = false := rfl
  rw [JsonReader.nextKey, JsonReader.bind_of_ok (JsonReader.peek_blank hb hclose _)]
  rfl

namespace JsonRecord

open JsonReader

variable {δ α : Type} (record : JsonRecord δ α) (sets : JsonField δ → δ → δ → JsonTree → Prop)

/-- What the members of an object make of a draft, one after the other. -/
inductive MembersSet : δ → List (Text × JsonTree) → δ → Prop
  | nil {draft : δ} : MembersSet draft [] draft
  | cons {draft next last : δ} {key : Text} {value : JsonTree} {members : List (Text × JsonTree)}
      {field : JsonField δ} (hf : record.field? key = some field)
      (hs : field.isSet draft = false) (hv : sets field draft next value)
      (later : MembersSet next members last) : MembersSet draft ((key, value) :: members) last

/-- What the values of a list make of a draft, each for its field. -/
inductive ValuesSet : List (JsonField δ) → δ → List JsonTree → δ → Prop
  | done {fields : List (JsonField δ)} {draft : δ}
      (h : ∀ field ∈ fields, field.isRequired = false) : ValuesSet fields draft [] draft
  | next {field : JsonField δ} {fields : List (JsonField δ)} {draft next last : δ}
      {value : JsonTree} {values : List JsonTree} (hv : sets field draft next value)
      (later : ValuesSet fields next values last) :
      ValuesSet (field :: fields) draft (value :: values) last

variable {record sets}

theorem readMembers_iff
    (hd : ∀ field ∈ record.fields, ∀ draft, Decodes (field.read draft) (sets field draft))
    {members : List (Text × JsonTree)} {isFirst : Bool} {text : Text} {fuel : Nat}
    (h : ItemsText (MemberText JsonTree.IsWritten) isFirst members text)
    (hf : text.length < fuel) (rest : Text) (draft draft' : δ) (rest' : Text) :
    record.readMembers fuel isFirst draft (text ++ '\x7d' :: rest) = .ok (draft', rest') ↔
      MembersSet record sets draft members draft' ∧ rest' = '\x7d' :: rest := by
  induction members generalizing isFirst text fuel draft with
  | nil =>
    obtain ⟨fuel, rfl⟩ := Nat.exists_eq_add_one_of_ne_zero (Nat.ne_zero_of_lt hf)
    cases h with
    | nil hb =>
      rw [readMembers, bind_of_ok (nextKey_end isFirst hb rest)]
      simp only [pure_eq_ok, Prod.mk.injEq]
      constructor
      · rintro ⟨rfl, rfl⟩
        exact ⟨.nil, rfl⟩
      · rintro ⟨⟨⟩, rfl⟩
        exact ⟨rfl, rfl⟩
  | cons member members ih =>
    obtain ⟨key, value⟩ := member
    obtain ⟨fuel, rfl⟩ := Nat.exists_eq_add_one_of_ne_zero (Nat.ne_zero_of_lt hf)
    obtain ⟨blank, written, others, hb, hw, hothers, hlt, hnext⟩ := h.nextKey
    obtain ⟨colon, hkey, hcolon⟩ := hnext ('\x7d' :: rest)
    rw [readMembers, bind_of_ok hkey]
    dsimp only
    cases hfield : record.field? key with
    | none =>
      constructor
      · intro h
        cases h
      · rintro ⟨hset, -⟩
        cases hset with
        | cons hf => simp [hfield] at hf
    | some field =>
      have hmem : field ∈ record.fields := List.mem_of_find?_eq_some hfield
      by_cases hset : field.isSet draft = true
      · simp only [hset, if_true]
        constructor
        · intro h
          obtain ⟨_, _, hthrow, -⟩ := bind_eq_ok.mp h
          cases hthrow
        · rintro ⟨hmembers, -⟩
          cases hmembers with
          | cons hf hs =>
            obtain rfl := Option.some.inj (hfield.symm.trans hf)
            exact absurd hset (by simp [hs])
      · have hfree : field.isSet draft = false := eq_false_of_ne_true hset
        have hread := hd field hmem draft hw hb (others ++ '\x7d' :: rest)
        have hlater := ih hothers (by omega : others.length < fuel)
        simp only [hfree, Bool.false_eq_true, if_false]
        rw [bind_of_ok hcolon, bind_eq_ok]
        constructor
        · rintro ⟨next, _, h, hrest⟩
          obtain ⟨hv, rfl⟩ := (hread _ _).mp h
          obtain ⟨hmembers, rfl⟩ := (hlater next).mp hrest
          exact ⟨.cons hfield hfree hv hmembers, rfl⟩
        · rintro ⟨hmembers, rfl⟩
          cases hmembers with
          | cons hf hs hv hmembers =>
            obtain rfl := Option.some.inj (hfield.symm.trans hf)
            exact ⟨_, _, (hread _ _).mpr ⟨hv, rfl⟩, (hlater _).mpr ⟨hmembers, rfl⟩⟩

theorem endList_ok {values : List JsonTree} {isFirst : Bool} {text rest rest' : Text}
    (h : ItemsText JsonTree.IsWritten isFirst values text)
    (hend : endList (text ++ ']' :: rest) = .ok ((), rest')) : values = [] := by
  cases h with
  | nil => rfl
  | @first blank _ others _ _ hb hw =>
    obtain ⟨c, begun, rfl, hc⟩ := hw.begins
    obtain ⟨hspace, hclose, hcomma⟩ := JsonType.openings_props hc
    simp only [List.append_assoc, List.cons_append] at hend
    rw [endList, bind_of_ok (peek_blank hb hspace _)] at hend
    simp only [if_neg hclose, if_neg hcomma] at hend
    cases hend
  | @next blank _ _ _ _ _ hb =>
    have hspace : isSpace ',' = false := rfl
    have hclose : ',' ≠ ']' := by decide
    simp only [List.append_assoc, List.cons_append] at hend
    rw [endList, bind_of_ok (peek_blank hb hspace _)] at hend
    simp only [if_neg hclose, if_true] at hend
    obtain ⟨_, _, -, hpeek⟩ := bind_eq_ok.mp hend
    obtain ⟨next, _, -, hthrow⟩ := bind_eq_ok.mp hpeek
    by_cases hn : next = some ']'
    · rw [if_pos hn] at hthrow
      cases hthrow
    · rw [if_neg hn] at hthrow
      cases hthrow

variable (record) in
theorem readInOrder_iff {fields : List (JsonField δ)}
    (hd : ∀ field ∈ fields, ∀ draft, Decodes (field.read draft) (sets field draft))
    {values : List JsonTree} {length : Nat} {text : Text}
    (h : ItemsText JsonTree.IsWritten (length == 0) values text) (rest : Text)
    (draft draft' : δ) (rest' : Text) :
    (∃ mid, record.readInOrder fields length draft (text ++ ']' :: rest) = .ok (draft', mid) ∧
      endList mid = .ok ((), rest')) ↔
      ValuesSet sets fields draft values draft' ∧ rest' = rest := by
  induction fields generalizing values length text draft with
  | nil =>
    constructor
    · rintro ⟨mid, hread, hend⟩
      obtain ⟨rfl, rfl⟩ := Prod.mk.inj (pure_eq_ok.mp hread)
      obtain rfl := endList_ok h hend
      rw [endList_end h.isBlank] at hend
      obtain ⟨-, rfl⟩ := Prod.mk.inj (Except.ok.inj hend)
      exact ⟨.done nofun, rfl⟩
    · rintro ⟨hvalues, rfl⟩
      cases hvalues with
      | done => exact ⟨_, rfl, endList_end h.isBlank _⟩
  | cons field fields ih =>
    obtain ⟨hfield, hfields⟩ := List.forall_mem_cons.mp hd
    cases values with
    | nil =>
      have hnext := nextValue_end (length == 0) h.isBlank rest
      have hnil : ItemsText JsonTree.IsWritten (length == 0) [] [] := .nil isBlank_nil
      have hlater := ih hfields hnil draft
      rw [readInOrder, bind_of_ok hnext]
      simp only [Bool.false_eq_true, if_false]
      by_cases hr : field.isRequired = true
      · simp only [hr, if_true]
        constructor
        · rintro ⟨mid, hthrow, -⟩
          cases hthrow
        · rintro ⟨hvalues, -⟩
          cases hvalues with
          | done hnone => exact absurd hr (by simp [hnone field (.head _)])
      · have hoptional := eq_false_of_ne_true hr
        simp only [hoptional, Bool.false_eq_true, if_false]
        rw [← List.nil_append (']' :: rest), hlater]
        constructor
        · rintro ⟨hvalues, rfl⟩
          cases hvalues with
          | done hnone => exact ⟨.done (List.forall_mem_cons.mpr ⟨hoptional, hnone⟩), rfl⟩
        · rintro ⟨hvalues, rfl⟩
          cases hvalues with
          | done hnone => exact ⟨.done fun field hm => hnone field (.tail _ hm), rfl⟩
    | cons value values =>
      obtain ⟨written, others, hw, hothers, -, hnext⟩ := h.nextValue
      have hread := hfield draft hw isBlank_nil (others ++ ']' :: rest)
      have hothers' : ItemsText JsonTree.IsWritten (length + 1 == 0) values others := hothers
      have hlater := ih hfields hothers'
      rw [readInOrder, bind_of_ok (hnext _)]
      simp only [if_true]
      constructor
      · rintro ⟨mid, h, hend⟩
        obtain ⟨next, _, hvalue, hrest⟩ := bind_eq_ok.mp h
        obtain ⟨hv, rfl⟩ := (hread _ _).mp hvalue
        obtain ⟨hvalues, rfl⟩ := (hlater next).mp ⟨mid, hrest, hend⟩
        exact ⟨.next hv hvalues, rfl⟩
      · rintro ⟨hvalues, rfl⟩
        cases hvalues with
        | next hv hvalues =>
          obtain ⟨mid, hrest, hend⟩ := (hlater _).mpr ⟨hvalues, rfl⟩
          exact ⟨mid, bind_eq_ok.mpr ⟨_, _, (hread _ _).mpr ⟨hv, rfl⟩, hrest⟩, hend⟩

/-- The record of a draft in which each required field is set. -/
def Completes (record : JsonRecord δ α) (draft : δ) (a : α) : Prop :=
  (∀ field ∈ record.fields, field.isRequired = true → field.isSet draft = true) ∧
    record.finish draft = some a

theorem complete_iff {draft : δ} {a : α} {text rest : Text} :
    record.complete draft text = .ok (a, rest) ↔ record.Completes draft a ∧ rest = text := by
  cases hfind : record.fields.find? fun field => field.isRequired && !field.isSet draft with
  | some field =>
    have hmem := List.mem_of_find?_eq_some hfind
    have hunset := List.find?_some hfind
    simp only [Bool.and_eq_true, Bool.not_eq_true'] at hunset
    simp only [complete, hfind]
    constructor
    · intro h
      cases h
    · rintro ⟨⟨hset, -⟩, -⟩
      have hfield := hset field hmem hunset.1
      rw [hunset.2] at hfield
      exact absurd hfield Bool.false_ne_true
  | none =>
    have hset : ∀ field ∈ record.fields, field.isRequired = true → field.isSet draft = true := by
      intro field hmem hr
      have hnone := List.find?_eq_none.mp hfind field hmem
      simpa [hr] using hnone
    cases hfinish : record.finish draft with
    | none =>
      simp only [complete, hfind, hfinish]
      constructor
      · intro h
        cases h
      · rintro ⟨⟨-, h⟩, -⟩
        rw [hfinish] at h
        cases h
    | some value =>
      simp only [complete, hfind, hfinish, pure_eq_ok, Prod.mk.injEq]
      constructor
      · rintro ⟨rfl, rfl⟩
        exact ⟨⟨hset, hfinish⟩, rfl⟩
      · rintro ⟨⟨-, h⟩, rfl⟩
        rw [hfinish] at h
        exact ⟨(Option.some.inj h).symm, rfl⟩

variable (record sets) in
/-- What an object or a list makes of the empty draft. -/
inductive TreeSets : JsonTree → δ → Prop
  | object {members : List (Text × JsonTree)} {draft : δ}
      (h : MembersSet record sets record.empty members draft) : TreeSets (.object members) draft
  | list {values : List JsonTree} {draft : δ}
      (h : ValuesSet sets record.fields record.empty values draft) : TreeSets (.list values) draft

theorem read_decodes
    (hd : ∀ field ∈ record.fields, ∀ draft, Decodes (field.read draft) (sets field draft)) :
    Decodes record.read fun a tree =>
      ∃ draft, TreeSets record sets tree draft ∧ record.Completes draft a := by
  intro tree text blank hw hb rest a rest'
  obtain ⟨c, later, rfl, hc⟩ := hw.begins
  have hblank := (JsonType.openings_props hc).1
  have hobject : c = '\x7b' ↔ tree.type = .object := begins_iff hc rfl
  have hlist : c = '[' ↔ tree.type = .list := begins_iff hc rfl
  rw [JsonRecord.read, List.cons_append, bind_of_ok (beginValue_blank hb hblank _)]
  by_cases ho : tree.type = .object
  · obtain ⟨members, rfl⟩ := tree.isObject ho
    rw [if_pos (hobject.mpr ho), bind_of_ok (skip_cons _ _)]
    cases hw with
    | @object _ text h =>
      have hf : text.length < (text ++ '\x7d' :: rest).length + 1 := by
        rw [List.length_append]
        omega
      have hmembers := readMembers_iff hd h hf rest record.empty
      simp only [List.append_assoc, List.singleton_append]
      rw [bind_of_ok (get_eq _), bind_eq_ok]
      constructor
      · rintro ⟨draft, _, hread, hrest⟩
        obtain ⟨hset, rfl⟩ := (hmembers _ _).mp hread
        obtain ⟨value, _, hcomplete, hskip⟩ := bind_eq_ok.mp hrest
        obtain ⟨hdone, rfl⟩ := complete_iff.mp hcomplete
        rw [bind_of_ok (skip_cons _ _), pure_eq_ok] at hskip
        obtain ⟨rfl, rfl⟩ := Prod.mk.inj hskip
        exact ⟨⟨draft, .object hset, hdone⟩, rfl⟩
      · rintro ⟨⟨draft, ⟨hset⟩, hdone⟩, rfl⟩
        refine ⟨draft, _, (hmembers _ _).mpr ⟨hset, rfl⟩, ?_⟩
        rw [bind_of_ok (complete_iff.mpr ⟨hdone, rfl⟩), bind_of_ok (skip_cons _ _)]
        rfl
  · rw [if_neg (mt hobject.mp ho)]
    by_cases hl : tree.type = .list
    · obtain ⟨values, rfl⟩ := tree.isList hl
      rw [if_pos (hlist.mpr hl), bind_of_ok (skip_cons _ _)]
      cases hw with
      | @list _ text h =>
        have hfirst : ItemsText JsonTree.IsWritten (0 == 0) values text := h
        have hvalues := readInOrder_iff record hd hfirst rest record.empty
        simp only [List.append_assoc, List.singleton_append]
        rw [bind_eq_ok]
        constructor
        · rintro ⟨draft, mid, hread, hrest⟩
          obtain ⟨value, _, hcomplete, hend⟩ := bind_eq_ok.mp hrest
          obtain ⟨hdone, rfl⟩ := complete_iff.mp hcomplete
          obtain ⟨_, _, hclose, hpure⟩ := bind_eq_ok.mp hend
          obtain ⟨rfl, rfl⟩ := Prod.mk.inj (pure_eq_ok.mp hpure)
          obtain ⟨hset, rfl⟩ := (hvalues _ _).mp ⟨_, hread, hclose⟩
          exact ⟨⟨draft, .list hset, hdone⟩, rfl⟩
        · rintro ⟨⟨draft, hset, hdone⟩, rfl⟩
          cases hset with
          | list hset =>
            obtain ⟨mid, hread, hclose⟩ := (hvalues _ _).mpr ⟨hset, rfl⟩
            refine ⟨draft, mid, hread, ?_⟩
            rw [bind_of_ok (complete_iff.mpr ⟨hdone, rfl⟩), bind_of_ok hclose]
            rfl
    · rw [if_neg (mt hlist.mp hl)]
      constructor
      · intro h
        exact absurd h (mismatch_not_ok _ _ _)
      · rintro ⟨⟨draft, hset, -⟩, -⟩
        cases hset with
        | object => exact absurd rfl ho
        | list => exact absurd rfl hl

end JsonRecord

end DirectImports
