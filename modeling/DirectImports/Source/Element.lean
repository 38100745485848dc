import DirectImports.Source.Function

/-! Elements: markup among expressions. Between tags a text runs up to the next tag or brace. A
reader of an element stops at its last angle bracket, behind which either code goes on or the text
of the element around it. -/

namespace DirectImports

/-- Whether a character may stand between tags. -/
def isElementText (c : Char) : Bool :=
  c != '<' && c != '>' && c != '\x7b' && c != '\x7d'

def isTagPart (c : Char) : Bool :=
  c == '-' || isIdentifierPart c

/-- The text behind a word that may have hyphens, of which the first part is read. -/
def dropTagParts (text : Text) : Text :=
  if text.head? = some '-' then text.dropWhile isTagPart else text

def tagStep (lexed : Lexed) : Option (Unit × Lexed) :=
  some ((), nextToken (dropTagParts lexed.rest))

/-- The value of an attribute: behind it if it is a string, otherwise at its first token. Tells
whether it is a string. -/
def attributeStep (lexed : Lexed) : Option (Bool × Lexed) :=
  match (skipTrivia lexed.rest).2 with
  | [] => none
  | quote :: text =>
    if quote = '"' ∨ quote = '\'' then
      (readAttributeString quote text).map fun rest => (true, nextToken rest)
    else some (false, nextToken (quote :: text))

/-- The bracket or brace that begins a child of an element, behind the text before it. -/
def childStep (lexed : Lexed) : Option (Unit × Lexed) :=
  match lexed.rest.dropWhile isElementText with
  | '<' :: rest => some ((), { lexed with token := .mark .less, rest := rest })
  | '\x7b' :: rest => some ((), { lexed with token := .mark .openBrace, rest := rest })
  | _ => none

theorem dropTagParts_append {text : Text} (h : dropTagParts text ≠ []) (more : Text) :
    dropTagParts (text ++ more) = dropTagParts text ++ more := by
  have hhead : (text ++ more).head? = text.head? := by
    cases text with
    | nil => exact absurd rfl h
    | cons c text => rfl
  unfold dropTagParts at h ⊢
  rw [hhead]
  by_cases hc : text.head? = some '-'
  · rw [if_pos hc] at h
    rw [if_pos hc, if_pos hc, dropWhile_append_of_ne_nil h]
  · rw [if_neg hc, if_neg hc]

theorem isLocal_tagStep : IsLocal tagStep := by
  intro lexed behind result hs hb more
  obtain ⟨-, rfl⟩ := Prod.mk.inj (Option.some.inj hs)
  have hrest := dropTagParts_append (ne_nil_of_isSettled hb) more
  simp [tagStep, Lexed.extend, hrest, nextToken_settled hb]

theorem isLocal_attributeStep : IsLocal attributeStep := by
  intro lexed behind result hs hb more
  unfold attributeStep at hs ⊢
  obtain ⟨broken, text, hskip⟩ : ∃ broken text, skipTrivia lexed.rest = (broken, text) :=
    ⟨_, _, rfl⟩
  have happend (hn : text ≠ []) (hs : text ≠ ['/']) :
      (skipTrivia (lexed.extend more).rest).2 = text ++ more :=
    congrArg Prod.snd (skipTrivia_settled hskip hn hs more)
  rw [hskip] at hs
  cases text with
  | nil => cases hs
  | cons quote text =>
    dsimp only at hs
    by_cases hq : quote = '"' ∨ quote = '\''
    · have hslash : quote :: text ≠ ['/'] := by
        rcases hq with rfl | rfl <;> simp
      rw [if_pos hq] at hs
      obtain ⟨rest, hread, hs⟩ := Option.map_eq_some_iff.mp hs
      obtain ⟨rfl, rfl⟩ := Prod.mk.inj hs
      rw [happend (by simp) hslash, List.cons_append]
      dsimp only
      rw [if_pos hq, readAttributeString_append hread, Option.map_some, nextToken_settled hb]
    · rw [if_neg hq] at hs
      obtain ⟨rfl, rfl⟩ := Prod.mk.inj (Option.some.inj hs)
      have hslash : quote :: text ≠ ['/'] := by
        intro ht
        rw [ht] at hb
        cases hb
      rw [happend (by simp) hslash, List.cons_append]
      dsimp only
      rw [if_neg hq, ← List.cons_append, nextToken_settled hb]

theorem isLocal_childStep : IsLocal childStep := by
  intro lexed behind result hs hb more
  have happend (hn : lexed.rest.dropWhile isElementText ≠ []) :
      (lexed.extend more).rest.dropWhile isElementText =
        lexed.rest.dropWhile isElementText ++ more :=
    dropWhile_append_of_ne_nil hn more
  unfold childStep at hs ⊢
  split at hs
  next rest hd =>
    obtain ⟨rfl, rfl⟩ := Prod.mk.inj (Option.some.inj hs)
    rw [happend (by simp [hd]), hd]
    rfl
  next rest hd =>
    obtain ⟨rfl, rfl⟩ := Prod.mk.inj (Option.some.inj hs)
    rw [happend (by simp [hd]), hd]
    rfl
  next => cases hs

namespace SourceReader

/-- A word that may have hyphens. -/
def tagWord : SourceReader Unit := do
  require (← sees View.isAnyWord)
  goes tagStep isLocal_tagStep

def tagName : SourceReader Unit := do
  tagWord
  if ← takes .colon then tagWord
  else
    repeatedly do
      if ← takes .dot then
        tagWord
        return true
      else return false

/-- The braces around an expression, up to the closing one. -/
def container : SourceReader Unit := do
  expect .openBrace
  if !(← seesMark .closeBrace) then
    discard (takes .spread)
    inside (pass .expression)
  standAt .closeBrace

def attributeValue : SourceReader Unit := do
  if !(← goes attributeStep isLocal_attributeStep) then
    if ← seesMark .openBrace then container
    else
      standAt .less
      pass .element
    advance

def spreadAttribute : SourceReader Unit := do
  expect .openBrace
  expect .spread
  inside (pass .expression)
  expect .closeBrace

def tagAttribute : SourceReader Unit := do
  if ← seesMark .openBrace then spreadAttribute
  else
    tagWord
    if ← takes .colon then tagWord
    if ← seesMark .equals then attributeValue

def tagAttributes : SourceReader Unit :=
  repeatedly do
    if ← sees fun view => view.isOneOf [.less, .greater, .slash] || view.isEnd then return false
    tagAttribute
    return true

/-- One child of an element, read behind its last character; tells whether another one may
follow, else the tag that closes the element begins here. -/
def child : SourceReader Bool := do
  goes childStep isLocal_childStep
  if ← seesMark .openBrace then
    container
    return true
  else if ← behind (seesMark .slash) then return false
  else
    pass .element
    return true

/-- The children of an element and the tag that closes it, whose name is not looked at. -/
def children : SourceReader Unit := do
  repeatedly child
  expect .less
  expect .slash
  if ← sees View.isAnyWord then tagName
  standAt .greater

def element : SourceReader Unit := do
  expect .less
  if ← seesMark .greater then children
  else
    tagName
    if ← typescript <&&> opensTypeArguments then typeArguments
    tagAttributes
    if ← takes .slash then standAt .greater
    else
      standAt .greater
      children

end SourceReader

end DirectImports
