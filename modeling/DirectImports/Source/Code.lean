import DirectImports.Source.Statement

/-! The grammar of source texts, in which phrases hold each other to any depth that a text can
have. -/

namespace DirectImports

open SourceReader

def Phrase.reader : Phrase → SourceReader Form
  | statement isBody => do
    SourceReader.statement isBody
    return .other
  | expression => SourceReader.expression
  | assignment allowsReturnType => SourceReader.assignment allowsReturnType
  | unary => SourceReader.unary
  | operand => SourceReader.operand
  | creation => SourceReader.creation
  | binding => do
    SourceReader.binding
    return .other
  | type => do
    SourceReader.type
    return .other
  | element => do
    SourceReader.element
    return .other

/-- What is read of the phrases that lie at most so deep in each other. -/
def phrasesFor (limit : Nat) (isCut : Bool) : Nat → Phrase → Setting → Lexed → Reading Form
  | 0, _, _, _ => .unsettled
  | depth + 1, phrase, setting, lexed =>
    phrase.reader.run ⟨phrasesFor limit isCut depth, limit, isCut⟩ setting lexed

/-- The setting outside all functions. -/
def outermostSetting (language : Language) : Setting where
  language := language
  allowsIn := true
  awaits := true
  yields := false
  decorates := false
  isPlainType := false

/-- What is read of the statement at the beginning of a text. No more than twenty phrases lie in
each other at one place, so that the depth is never used up. -/
def readStatement (isCut : Bool) (language : Language) (text : Text) : Reading Form :=
  phrasesFor (text.length + 2) isCut (20 * (text.length + 1)) (.statement false)
    (outermostSetting language) (nextToken text)

/-- The length of what has been read of a text. -/
def Reading.length? {α : Type} (text : Text) : Reading α → Option Nat
  | done _ behind => some (text.length - behind.start.length)
  | refused => none
  | unsettled => none

/-- The length of the statement at the beginning of a text, with the gap behind it. -/
def statementLength? (language : Language) (text : Text) : Option Nat :=
  (readStatement false language text).length? text

/-- The length of the statement at the beginning of a text that is cut off, if it is the same
however the text goes on. -/
def settledLength? (language : Language) (text : Text) : Option Nat :=
  if (nextToken text).isSettled then (readStatement true language text).length? text else none

end DirectImports
