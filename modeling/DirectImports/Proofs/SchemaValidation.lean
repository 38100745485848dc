import DirectImports.Options.Schema
import DirectImports.Proofs.JsonText

/-! What a JSON schema asks of a value. All keywords of a schema must hold. A keyword about another
type of values holds of any value, and so does one that is not known here. -/

namespace DirectImports

inductive SchemaKeyword where
  | type
  | enum
  | required
  | properties
  | additionalProperties
  | items
  | anyOf
  | not
deriving DecidableEq, Repr

namespace SchemaKeyword

def name : SchemaKeyword → String
  | type => "type"
  | enum => "enum"
  | required => "required"
  | properties => "properties"
  | additionalProperties => "additionalProperties"
  | items => "items"
  | anyOf => "anyOf"
  | not => "not"

def all : List SchemaKeyword :=
  [type, enum, required, properties, additionalProperties, items, anyOf, not]

def ofText? (text : Text) : Option SchemaKeyword :=
  all.find? fun keyword => keyword.name.toList == text

theorem ofText?_names : ofText? "type".toList = some type ∧ ofText? "enum".toList = some enum ∧
    ofText? "required".toList = some required ∧ ofText? "properties".toList = some properties ∧
    ofText? "additionalProperties".toList = some additionalProperties ∧
    ofText? "items".toList = some items ∧ ofText? "anyOf".toList = some anyOf ∧
    ofText? "not".toList = some not := by
  decide +kernel

end SchemaKeyword

def JsonType.schemaName : JsonType → String
  | null => "null"
  | boolean => "boolean"
  | number => "number"
  | string => "string"
  | list => "array"
  | object => "object"

theorem JsonType.schemaName_injective {a b : JsonType} (h : a.schemaName = b.schemaName) :
    a = b := by
  revert h
  cases a <;> cases b <;> decide

namespace JsonTree

def items : JsonTree → List JsonTree
  | list values => values
  | _ => []

def members : JsonTree → List (Text × JsonTree)
  | object members => members
  | _ => []

end JsonTree

namespace JsonValue

def listed : JsonValue → List JsonValue
  | list values => values
  | _ => []

def memberKeys : JsonValue → List Text
  | object members => members.map Prod.fst
  | _ => []

/-- Whether a value is this one. Numbers, lists and objects are not enumerated here. -/
def isSame : JsonValue → JsonTree → Bool
  | null, .null => true
  | bool a, .bool b => a == b
  | string a, .string b => a == b
  | _, _ => false

def isTypeOf : JsonValue → JsonTree → Bool
  | string name, tree => name == tree.type.schemaName.toList
  | _, _ => false

def isKeyOf (members : List (Text × JsonTree)) : JsonValue → Bool
  | string key => (members.map Prod.fst).contains key
  | _ => false

def propertyNames (keywords : List (Text × JsonValue)) : List Text :=
  keywords.flatMap fun keyword =>
    if SchemaKeyword.ofText? keyword.1 = some .properties then keyword.2.memberKeys else []

mutual

def admits : JsonValue → JsonTree → Bool
  | bool value, _ => value
  | object keywords, tree => keywordsAdmit (propertyNames keywords) keywords tree
  | _, _ => false

/-- The keywords of a schema. Members without a name among `known` are additional. -/
def keywordsAdmit (known : List Text) : List (Text × JsonValue) → JsonTree → Bool
  | [], _ => true
  | (keyword, value) :: keywords, tree =>
    (match SchemaKeyword.ofText? keyword with
      | none => true
      | some .type => value.isTypeOf tree
      | some .enum => value.listed.any fun one => one.isSame tree
      | some .required => tree.type != .object || value.listed.all (isKeyOf tree.members)
      | some .properties => propertiesAdmit value tree.members
      | some .additionalProperties =>
        tree.members.all fun member => known.contains member.1 || value.admits member.2
      | some .items => tree.items.all fun item => value.admits item
      | some .anyOf => someAdmits value tree
      | some .not => !value.admits tree) && keywordsAdmit known keywords tree

def propertiesAdmit : JsonValue → List (Text × JsonTree) → Bool
  | object properties, members => membersAdmit properties members
  | _, _ => false

def membersAdmit : List (Text × JsonValue) → List (Text × JsonTree) → Bool
  | [], _ => true
  | (name, schema) :: properties, members =>
    (members.all fun member => member.1 != name || schema.admits member.2) &&
      membersAdmit properties members

def someAdmits : JsonValue → JsonTree → Bool
  | list schemas, tree => anyAdmits schemas tree
  | _, _ => false

def anyAdmits : List JsonValue → JsonTree → Bool
  | [], _ => false
  | schema :: schemas, tree => schema.admits tree || anyAdmits schemas tree

end

theorem membersAdmit_iff {properties : List (Text × JsonValue)}
    {members : List (Text × JsonTree)} :
    membersAdmit properties members = true ↔ ∀ property ∈ properties, ∀ value,
      (property.1, value) ∈ members → property.2.admits value = true := by
  induction properties with
  | nil => simp [membersAdmit]
  | cons property properties ih =>
    obtain ⟨name, schema⟩ := property
    have hfirst : (members.all fun member => member.1 != name || schema.admits member.2) = true ↔
        ∀ value, (name, value) ∈ members → schema.admits value = true := by
      rw [List.all_eq_true]
      constructor
      · intro h value hm
        simpa using h _ hm
      · rintro h ⟨key, value⟩ hm
        by_cases hname : key = name
        · subst hname
          simp [h value hm]
        · simp [hname]
    rw [membersAdmit, Bool.and_eq_true, hfirst, ih, List.forall_mem_cons]

end JsonValue

namespace Schema

open JsonValue SchemaKeyword

variable {tree : JsonTree}

theorem text_isTypeOf (type : JsonType) :
    (text type.schemaName).isTypeOf tree = true ↔ tree.type = type := by
  rw [text, isTypeOf, beq_iff_eq, String.toList_inj]
  exact ⟨fun h => (JsonType.schemaName_injective h).symm, fun h => by rw [h]⟩

theorem admits_ofType (type : JsonType) :
    (ofType type.schemaName).admits tree = true ↔ tree.type = type := by
  simp only [ofType, object, admits, List.map_cons, List.map_nil, keywordsAdmit, ofText?_names,
    Bool.and_true]
  exact text_isTypeOf type

theorem admits_notString : notString.admits tree = true ↔ tree.type ≠ .string := by
  simp only [notString, object, admits, List.map_cons, List.map_nil, keywordsAdmit,
    ofText?_names, Bool.and_true, Bool.not_eq_true', ← Bool.not_eq_true]
  exact not_congr (admits_ofType .string)

theorem admits_listOf {items : JsonValue} : (listOf items).admits tree = true ↔
    tree.type = .list ∧ ∀ item ∈ tree.items, items.admits item = true := by
  simp only [listOf, object, admits, List.map_cons, List.map_nil, keywordsAdmit, ofText?_names,
    Bool.and_true, Bool.and_eq_true, List.all_eq_true]
  exact and_congr_left' (text_isTypeOf .list)

theorem propertiesAdmit_object {properties : List (String × JsonValue)}
    {members : List (Text × JsonTree)} :
    (object properties).propertiesAdmit members = true ↔
      ∀ property ∈ properties, ∀ value, (property.1.toList, value) ∈ members →
        property.2.admits value = true := by
  rw [object, propertiesAdmit, membersAdmit_iff, List.forall_mem_map]

theorem all_isKeyOf {required : List String} {members : List (Text × JsonTree)} :
    (required.map text).all (isKeyOf members) = true ↔
      ∀ name ∈ required, name.toList ∈ members.map Prod.fst := by
  have hkey (name : String) : (isKeyOf members ∘ text) name = true ↔
      name.toList ∈ members.map Prod.fst := List.contains_iff_mem
  rw [List.all_map, List.all_eq_true]
  simp only [hkey]

/-- An object that has the required members, and no members but those that are described. -/
theorem admits_record {properties : List (String × JsonValue)} {required : List String} :
    (record properties required).admits tree = true ↔ tree.type = .object ∧
      (∀ property ∈ properties, ∀ value, (property.1.toList, value) ∈ tree.members →
        property.2.admits value = true) ∧
      (∀ name ∈ required, name.toList ∈ tree.members.map Prod.fst) ∧
      ∀ member ∈ tree.members, member.1 ∈ properties.map fun property => property.1.toList := by
  have hknown : (object properties).memberKeys =
      properties.map fun property => property.1.toList := by
    rw [object, memberKeys, List.map_map]
    rfl
  unfold record
  rw [object]
  simp only [List.map_cons, List.map_nil, admits, keywordsAdmit, propertyNames,
    List.flatMap_cons, List.flatMap_nil, ofText?_names, listed, Bool.and_true, Bool.and_eq_true,
    Bool.or_false, List.all_eq_true, List.contains_iff_mem, Option.some.injEq, reduceCtorEq,
    if_true, if_false, List.nil_append, List.append_nil, hknown, propertiesAdmit_object]
  refine (and_congr_left' (text_isTypeOf .object)).trans (and_congr_right fun htype => ?_)
  rw [htype]
  simp only [bne_self_eq_false, Bool.false_or, all_isKeyOf]

theorem isSame_string {name : Text} :
    (JsonValue.string name).isSame tree = true ↔ tree = .string name := by
  cases tree with
  | string text => rw [isSame, beq_iff_eq, JsonTree.string.injEq, eq_comm]
  | _ => exact ⟨nofun, nofun⟩

end Schema

end DirectImports
