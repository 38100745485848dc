import DirectImports.Proofs.Alike
import DirectImports.Source.Declaration
import DirectImports.Source.Operand

/-! Imports and exports as statements. -/

namespace DirectImports

def importStep (typescript : Bool) (lexed : Lexed) : Option (Unit × Lexed) :=
  (readImport typescript lexed.start).map fun (_, rest) => ((), nextToken rest)

def bracedStep (typescript : Bool) (lexed : Lexed) : Option (Unit × Lexed) :=
  (readBraced typescript lexed.start).map fun (_, rest) => ((), nextToken rest)

theorem isLocal_importStep (typescript : Bool) : IsLocal (importStep typescript) := by
  intro lexed behind result hs hb more
  obtain ⟨⟨declaration, rest⟩, hread, hs⟩ := Option.map_eq_some_iff.mp hs
  obtain ⟨rfl, rfl⟩ := Prod.mk.inj hs
  simp [importStep, Lexed.extend, readImport_settled hread hb, nextToken_settled hb]

theorem isLocal_bracedStep (typescript : Bool) : IsLocal (bracedStep typescript) := by
  intro lexed behind result hs hb more
  obtain ⟨⟨specifiers, rest⟩, hread, hs⟩ := Option.map_eq_some_iff.mp hs
  obtain ⟨rfl, rfl⟩ := Prod.mk.inj hs
  have happend := readBraced_settled hread (ne_nil_of_isSettled hb) more
  simp [bracedStep, Lexed.extend, happend, nextToken_settled hb]

namespace SourceReader

/-- An import inside a block, or one that gives another name to something. -/
def importOrAlias : SourceReader Unit := do
  if (← attempt importAlias).isNone then
    let typescript ← typescript
    goes (importStep typescript) (isLocal_importStep typescript)

def exportName : SourceReader Unit := do
  if !(← advanceIf (sees View.isLiteral)) then anyWord

def attributeEntry : SourceReader Unit := do
  exportName
  expect .colon
  string

def attributeEntries : SourceReader Unit := do
  if ← sees fun view => view.isWord "with" || (view.isWord "assert" && !view.broken) then
    advance
    discard (enclosed .openBrace .closeBrace attributeEntry)

def exportSource : SourceReader Unit := do
  expectWord "from"
  string
  attributeEntries
  endStatement

def exportAll : SourceReader Unit := do
  expect .star
  if ← takesWord "as" then exportName
  exportSource

/-- Exports in braces, of this module or of another one. -/
def exportList : SourceReader Unit := do
  standAt .openBrace
  let typescript ← typescript
  goes (bracedStep typescript) (isLocal_bracedStep typescript)
  if ← seesWord "from" then exportSource else endStatement

def exportDefault : SourceReader Unit := do
  advance
  let typed ← typescript
  if ← seesWord "class" then classRest
  else if ← pure typed <&&> seesAbstractClass then
    advance
    classRest
  else if ← pure typed <&&> seesWord "interface" <&&> hasNameOnLine then interface
  else if ← seesWord "function" <||> seesAsyncFunction then function
  else if ← seesMark .sign then decoratedClass
  else
    pass (.assignment true)
    endStatement

/-- What a module of an older kind exports, behind its equals sign. -/
def exportAssignment : SourceReader Unit := do
  expect .equals
  pass (.assignment true)
  endStatement

def exportNamespace : SourceReader Unit := do
  expectWord "as"
  expectWord "namespace"
  name
  endStatement

/-- An export that only TypeScript has, unless it declares something. -/
def typedExport : SourceReader Unit := do
  if ← seesMark .equals then exportAssignment
  else if ← seesWord "as" then exportNamespace
  else if ← seesWord "type" <&&> behind (seesMark .openBrace) then
    advance
    exportList
  else if ← seesWord "type" <&&> behind (seesMark .star) then
    advance
    exportAll
  else modifiedDeclaration

def exportStatement : SourceReader Unit := do
  expectWord "export"
  let view ← look
  if view.isWord "import" then importAlias
  else if view.isWord "default" then exportDefault
  else if view.is .star then exportAll
  else if view.is .openBrace then exportList
  else if view.is .sign then decoratedClass
  else if ← typescript then typedExport
  else declaration

end SourceReader

end DirectImports
