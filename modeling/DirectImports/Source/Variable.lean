import DirectImports.Source.Function

/-! Declarations of variables. The words `let`, `using` and `await` only begin one if what stands
behind them can be bound. -/

namespace DirectImports

/-- Whether `let` in front of this token declares variables in the head of a loop. -/
def View.followsLetInLoop (view : View) : Bool :=
  view.isOneOf [.openBrace, .openSquare] || (view.isAnyWord && !view.isWord "in")

namespace SourceReader

def hasNameOnLine : SourceReader Bool :=
  behind (sees fun view => view.isName && !view.broken)

/-- Whether variables are declared here that are disposed of. -/
def seesUsing : SourceReader Bool := do
  if ← seesWord "await" then
    behind (sees (fun view => view.isWord "using" && !view.broken) <&&> hasNameOnLine)
  else seesWord "using" <&&> hasNameOnLine

/-- Whether variables are declared in the head of a loop. -/
def declaresInLoop : SourceReader Bool := do
  if ← seesWord "let" then behind (sees View.followsLetInLoop)
  else if ← seesWord "using" <&&> behind (seesWord "of") then return false
  else seesWord "var" <||> seesWord "const" <||> seesUsing

def declarator : SourceReader Unit := do
  pass .binding
  if !(← look).broken then discard (takesTyped .exclamation)
  typeAnnotation
  if ← takes .equals then pass (.assignment true)

def variableList : SourceReader Unit := do
  discard (takesWord "await")
  advance
  separated declarator

def variableStatement : SourceReader Unit := do
  variableList
  endStatement

end SourceReader

end DirectImports
