import DirectImports.Source.Reader

/-! Modifiers. A word is one only if what stands behind it can be modified. -/

namespace DirectImports

def modifierWords : List Text :=
  ["abstract", "accessor", "async", "const", "declare", "default", "export", "in", "out",
   "override", "private", "protected", "public", "readonly", "static"].map String.toList

namespace View

def isModifierWord (view : View) : Bool :=
  view.isWordIn modifierWords

/-- Whether this is the name of a member, or what may stand before it. -/
def followsModifier (view : View) : Bool :=
  match view.token with
  | .word _ => true
  | .privateName => true
  | .literal _ => true
  | .number => true
  | _ => view.isOneOf [.openSquare, .openBrace, .star, .spread]

def followsOnLine (view : View) : Bool :=
  !view.broken && view.followsModifier

def followsExport (view : View) : Bool :=
  view.is .sign ||
    (!view.isOneOf [.star, .openBrace] && !view.isWord "as" && view.followsModifier)

end View

namespace SourceReader

/-- Whether a word follows on the same line. -/
@[inline] def precedesWord (keyword : String) : SourceReader Bool :=
  behind (sees fun view => view.isWord keyword && !view.broken)

def seesAsyncFunction : SourceReader Bool :=
  seesWord "async" <&&> precedesWord "function"

def seesAbstractClass : SourceReader Bool :=
  seesWord "abstract" <&&> precedesWord "class"

def followsDefault : SourceReader Bool :=
  (sees fun view =>
    view.isWord "class" || view.isWord "function" || view.isWord "interface" || view.is .sign) <||>
    seesAbstractClass <||> seesAsyncFunction

/-- Whether the word that stands here modifies what follows it. -/
def modifies : SourceReader Bool := do
  let view ← look
  if view.isWord "const" then behind (seesWord "enum")
  else if view.isWord "export" then
    behind do
      if ← seesWord "default" then behind followsDefault
      else if ← seesWord "type" then behind (sees View.followsExport)
      else sees View.followsExport
  else if view.isWord "default" then behind followsDefault
  else if view.isWord "static" || view.isWord "get" || view.isWord "set" then
    behind (sees View.followsModifier)
  else behind (sees View.followsOnLine)

/-- Whether a block of statements that runs with its class stands here. -/
def seesStaticBlock : SourceReader Bool :=
  seesWord "static" <&&> behind (seesMark .openBrace)

/-- Where modifiers stand. Among the members of a class a static block is none; there and among
the parameters of a type, `const` may be one. -/
structure ModifierPlace where
  allowsConst : Bool
  isClass : Bool

def ModifierPlace.accepts (place : ModifierPlace) (seenStatic : Bool) : SourceReader Bool := do
  let view ← look
  if !view.isModifierWord then return false
  else if place.allowsConst && view.isWord "const" then behind (sees View.followsOnLine)
  else if ← pure place.isClass <&&> seesStaticBlock then return false
  else if seenStatic && view.isWord "static" then return false
  else modifies

def modifierTurn (place : ModifierPlace) (seen : List View) :
    SourceReader (Turn (List View) (List View)) := do
  let view ← look
  if ← place.accepts (seen.any fun view => view.isWord "static") then
    advance
    return .again (view :: seen)
  else return .last seen

/-- Takes modifiers and tells whether `async` is one of them. -/
def modifiers (place : ModifierPlace) : SourceReader Bool := do
  let seen ← iterate (modifierTurn place) []
  return seen.any fun view => view.isWord "async"

@[inline] def takesModifier (keyword : String) : SourceReader Bool :=
  advanceIf (seesWord keyword <&&> modifies)

end SourceReader

end DirectImports
