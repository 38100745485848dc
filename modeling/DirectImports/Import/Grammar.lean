import DirectImports.Import.Declaration
import DirectImports.Source.Token

/-! Reading import declarations. `type` is a modifier in TypeScript only, and there a plain name
wherever the declaration would make no sense otherwise. Each reader returns the text behind what
it has read. -/

namespace DirectImports

def readMark (mark : Mark) (text : Text) : Option Text :=
  let lexed := nextToken text
  if lexed.is mark then some lexed.rest else none

def readKeyword (keyword : String) (text : Text) : Option Text :=
  let lexed := nextToken text
  if lexed.isWord keyword then some lexed.rest else none

def readString (text : Text) : Option (Text × Text) :=
  let lexed := nextToken text
  match lexed.token with
  | .literal value => some (value, lexed.rest)
  | _ => none

/-- A name that a binding may have. -/
def readBinding (text : Text) : Option (Text × Text) :=
  let lexed := nextToken text
  match lexed.token with
  | .word word => if isReserved word.text then none else some (word.text, lexed.rest)
  | _ => none

def readExportName (text : Text) : Option (Text × Text) :=
  let lexed := nextToken text
  match lexed.token with
  | .word word => some (word.text, lexed.rest)
  | .literal value => some (value, lexed.rest)
  | _ => none

/-- The local name after an imported one, which is the same unless `as` gives another. -/
def readAlias (importedName : Text) (isType : Bool) (text : Text) :
    Option (Specifier × Text) :=
  match readKeyword "as" text with
  | some rest => do
    let (localName, rest) ← readExportName rest
    return (.named importedName localName isType, rest)
  | none => some (.named importedName importedName isType, text)

/-- The rest of a specifier that begins with `type as`. -/
def readAfterTypeAs (typescript : Bool) (text : Text) : Option (Specifier × Text) :=
  match readKeyword "as" text with
  | some rest =>
    match readExportName rest with
    | some (localName, rest) =>
      if typescript then some (.named "as".toList localName true, rest) else none
    | none => some (.named "type".toList "as".toList false, rest)
  | none =>
    match readExportName text with
    | some (localName, rest) => some (.named "type".toList localName false, rest)
    | none => if typescript then some (.named "as".toList "as".toList true, text) else none

def readAfterType (typescript : Bool) (text : Text) : Option (Specifier × Text) :=
  match readKeyword "as" text with
  | some rest => readAfterTypeAs typescript rest
  | none =>
    match readExportName text with
    | some (importedName, rest) => if typescript then readAlias importedName true rest else none
    | none => some (.named "type".toList "type".toList false, text)

def readSpecifier (typescript : Bool) (text : Text) : Option (Specifier × Text) :=
  let lexed := nextToken text
  match lexed.token with
  | .word word =>
    if word.is "type" then readAfterType typescript lexed.rest
    else readAlias word.text false lexed.rest
  | .literal value => readAlias value false lexed.rest
  | _ => none

/-- Specifiers up to the closing brace, with a comma between two of them and perhaps one more
after the last. -/
def readSpecifiers (typescript : Bool) : Nat → Text → Option (List Specifier × Text)
  | 0, _ => none
  | fuel + 1, text =>
    match readMark .closeBrace text with
    | some rest => some ([], rest)
    | none => do
      let (specifier, rest) ← readSpecifier typescript text
      match readMark .comma rest with
      | some rest =>
        let (specifiers, rest) ← readSpecifiers typescript fuel rest
        return (specifier :: specifiers, rest)
      | none => return ([specifier], ← readMark .closeBrace rest)

def readBraced (typescript : Bool) (text : Text) : Option (List Specifier × Text) :=
  match readMark .star text with
  | some rest => do
    let (localName, rest) ← readBinding (← readKeyword "as" rest)
    return ([.entire localName], rest)
  | none => do
    let rest ← readMark .openBrace text
    readSpecifiers typescript (rest.length + 1) rest

def readBindings (typescript : Bool) (text : Text) : Option (List Specifier × Text) :=
  match readBinding text with
  | some (localName, rest) =>
    match readMark .comma rest with
    | some rest => do
      let (specifiers, rest) ← readBraced typescript rest
      return (.byDefault localName :: specifiers, rest)
    | none => some ([.byDefault localName], rest)
  | none => readBraced typescript text

def hasMark (mark : Mark) (text : Text) : Bool :=
  (readMark mark text).isSome

def hasKeyword (keyword : String) (text : Text) : Bool :=
  (readKeyword keyword text).isSome

/-- After `import type`, whether `type` is a modifier. Before `from` it is only if a second
`from` or a comma follows. -/
def typeModifies (text : Text) : Bool :=
  match readKeyword "from" text with
  | some rest => hasKeyword "from" rest || hasMark .comma rest
  | none => (readBinding text).isSome || hasMark .star text || hasMark .openBrace text

structure ImportClause where
  isTypeOnly : Bool
  specifiers : List Specifier
deriving DecidableEq, Repr

/-- After `import source`, whether `source` names a phase. -/
def sourceModifies (text : Text) : Bool :=
  match readKeyword "from" text with
  | some rest => hasKeyword "from" rest
  | none => (readBinding text).isSome

/-- The only binding of a declaration whose source is imported; TypeScript wants no `type` here. -/
def readSourceBinding (typescript : Bool) (text : Text) : Option (List Specifier × Text) := do
  let (localName, rest) ← readBinding text
  if typescript && localName == "type".toList then none
  return ([.byDefault localName], rest)

/-- The bindings of a clause, perhaps behind a word that names a phase. -/
def readPhase (typescript : Bool) (text : Text) : Option (List Specifier × Text) :=
  match readKeyword "source" text, readKeyword "defer" text with
  | some rest, _ =>
    if sourceModifies rest then readSourceBinding typescript rest else readBindings typescript text
  | none, some rest => readBindings typescript (if hasMark .star rest then rest else text)
  | none, none => readBindings typescript text

/-- The bindings of a clause, and whether they are for types only. -/
def readModified (typescript : Bool) (text : Text) : Option (ImportClause × Text) := do
  match readKeyword "type" text with
  | some rest =>
    if typeModifies rest then
      if !typescript then none
      let (specifiers, rest) ← readBindings typescript rest
      return (⟨true, specifiers⟩, rest)
    else
      let (specifiers, rest) ← readBindings typescript text
      return (⟨false, specifiers⟩, rest)
  | none =>
    let (specifiers, rest) ← readPhase typescript text
    return (⟨false, specifiers⟩, rest)

/-- Whether a clause binds nothing and consists of its `from`. -/
def isBareFrom (text : Text) : Bool :=
  (readKeyword "from" text).any fun rest => (readString rest).isSome

/-- A clause with its `from`; there is none before a string. -/
def readClause (typescript : Bool) (text : Text) : Option (ImportClause × Text) :=
  match readString text with
  | some _ => some (⟨false, []⟩, text)
  | none => do
    let (clause, rest) ←
      if isBareFrom text then some (⟨false, []⟩, text) else readModified typescript text
    return (clause, ← readKeyword "from" rest)

def readAttribute (text : Text) : Option Text := do
  let (_, rest) ← readExportName text
  let (_, rest) ← readString (← readMark .colon rest)
  return rest

def readAttributes : Nat → Text → Option Text
  | 0, _ => none
  | fuel + 1, text =>
    match readMark .closeBrace text with
    | some rest => some rest
    | none => do
      let rest ← readAttribute text
      match readMark .comma rest with
      | some rest => readAttributes fuel rest
      | none => readMark .closeBrace rest

/-- The word that introduces attributes; `assert` must stand on the same line. -/
def readAttributeKeyword (text : Text) : Option Text :=
  let lexed := nextToken text
  if lexed.isWord "with" || (lexed.isWord "assert" && !lexed.broken) then some lexed.rest
  else none

def readAttributeClause (text : Text) : Option Text :=
  match readAttributeKeyword text with
  | some rest => do
    let rest ← readMark .openBrace rest
    readAttributes (rest.length + 1) rest
  | none => some text

/-- The end of a declaration: its semicolon, or else the end of the line, a closing brace or the
end of the text, none of which belongs to it. -/
def readEnd (text : Text) : Option Text :=
  let lexed := nextToken text
  if lexed.is .semicolon then some lexed.rest
  else if lexed.endsStatement then some text
  else none

def readAfterImport (typescript : Bool) (text : Text) :
    Option (ImportClause × Text × Text) := do
  let (clause, rest) ← readClause typescript text
  let (source, rest) ← readString rest
  let rest ← readEnd (← readAttributeClause rest)
  return (clause, source, rest)

/-- The declaration at the beginning of a text, with a span that begins at zero. -/
def readImport (typescript : Bool) (text : Text) : Option (ImportDeclaration × Text) := do
  let (clause, source, rest) ← readAfterImport typescript (← readKeyword "import" text)
  return (
    { span := ⟨0, byteLength (text.take (text.length - rest.length))⟩
      source := some source
      specifiers := clause.specifiers
      isTypeOnly := clause.isTypeOnly },
    rest)

end DirectImports
