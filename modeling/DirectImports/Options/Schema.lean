import DirectImports.Json.Value

/-! The JSON schema of the rule options: a list with the schema of the one options object. A
transform that is not a string may be anything, so that a host can pass functions. -/

namespace DirectImports

namespace Schema

def text (value : String) : JsonValue :=
  .string value.toList

def object (members : List (String × JsonValue)) : JsonValue :=
  .object (members.map fun (key, value) => (key.toList, value))

def ofType (type : String) : JsonValue :=
  object [("type", text type)]

def listOf (items : JsonValue) : JsonValue :=
  object [("type", text "array"), ("items", items)]

def record (properties : List (String × JsonValue)) (required : List String) : JsonValue :=
  object [
    ("type", text "object"),
    ("properties", object properties),
    ("required", .list (required.map text)),
    ("additionalProperties", .bool false)]

def notString : JsonValue :=
  object [("not", ofType "string")]

def transformImportName : JsonValue :=
  object [("anyOf", .list [
    object [("enum", .list (["lowercase", "kebab-case", "camelCase"].map text))],
    notString])]

def namedExports : JsonValue :=
  record [
    ("suffixes", listOf (ofType "string")),
    ("customPattern", ofType "string"),
    ("transformImportName", notString)] ["suffixes"]

def pattern : JsonValue :=
  record [
    ("barrel", ofType "string"),
    ("transformPattern", ofType "string"),
    ("transformImportName", transformImportName),
    ("namedExports", namedExports)] ["barrel", "transformPattern"]

def ruleOptions : JsonValue :=
  record [("patterns", listOf pattern)] ["patterns"]

end Schema

def optionsSchema : JsonValue :=
  .list [Schema.ruleOptions]

end DirectImports
