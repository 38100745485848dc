import DirectImports.Proofs.Lexemes
import DirectImports.Source.Horizon

/-! Reading the code of a source text token by token. A reader stands at a token, and tells of a
text that is cut off only what holds of the whole text. -/

namespace DirectImports

structure SourceReader (α : Type) where
  run : Horizon → Setting → Lexed → Reading α
  foretells : ∀ {more : Text} {near far : Horizon}, near.Foretells more far →
    ∀ setting lexed, (run near setting lexed).Foretells more
      (run far setting (lexed.extend more))

/-- Whether a step, in a text that is cut off, goes to the same place of the whole text. -/
def IsLocal {α : Type} (step : Lexed → Option (α × Lexed)) : Prop :=
  ∀ {lexed behind : Lexed} {result : α}, step lexed = some (result, behind) →
    behind.isSettled = true →
      ∀ more, step (lexed.extend more) = some (result, behind.extend more)

/-- What a turn of a loop leads to. -/
inductive Turn (σ α : Type) where
  | again (state : σ)
  | last (result : α)

namespace SourceReader

variable {α β σ : Type}

instance : Monad SourceReader where
  pure result := {
    run := fun _ _ lexed => .done result lexed
    foretells := fun _ _ _ => .done }
  bind reader next := {
    run := fun horizon setting lexed =>
      (reader.run horizon setting lexed).andThen fun result => (next result).run horizon setting
    foretells := fun h setting lexed =>
      (reader.foretells h setting lexed).andThen fun result => (next result).foretells h setting }

def refuse : SourceReader α where
  run _ _ _ := .refused
  foretells _ _ _ := .refused

def setting : SourceReader Setting where
  run _ setting lexed := .done setting lexed
  foretells _ _ _ := .done

/-- The token that stands here. What follows it is seen by going on only. -/
def look : SourceReader View where
  run _ _ lexed := .done lexed.toView lexed
  foretells _ _ _ := .done

def phrase (kind : Phrase) : SourceReader Form where
  run horizon setting lexed := horizon.phrases kind setting lexed
  foretells h setting lexed := h.phrases kind setting lexed

def inSetting (change : Setting → Setting) (reader : SourceReader α) : SourceReader α where
  run horizon setting lexed := reader.run horizon (change setting) lexed
  foretells h setting lexed := reader.foretells h (change setting) lexed

/-- Goes to another place. In a text that is cut off enough must stand behind it, and a refusal may
come from the cut. -/
def goes (step : Lexed → Option (α × Lexed)) (hs : IsLocal step) : SourceReader α where
  run horizon _ lexed :=
    match step lexed with
    | some (result, behind) =>
      if horizon.isCut && !behind.isSettled then .unsettled else .done result behind
    | none => if horizon.isCut then .unsettled else .refused
  foretells {more near far} h _ lexed := by
    rw [h.isCut, h.isWhole]
    cases ht : step lexed with
    | none => exact .unsettled
    | some read =>
      obtain ⟨result, behind⟩ := read
      by_cases hb : behind.isSettled = true
      · rw [hs ht hb more]
        simpa [hb] using Reading.Foretells.done
      · simpa [hb] using Reading.Foretells.unsettled

/-- Reads something, or nothing if it is refused. -/
def attempt (reader : SourceReader α) : SourceReader (Option α) where
  run horizon setting lexed :=
    match reader.run horizon setting lexed with
    | .done result behind => .done (some result) behind
    | .refused => .done none lexed
    | .unsettled => .unsettled
  foretells h setting lexed := by
    rcases reader.foretells h setting lexed with hn | hf
    · rw [hn]
      exact .unsettled
    · rw [hf]
      cases reader.run _ setting lexed with
      | done | refused => exact .done
      | unsettled => exact .unsettled

/-- What a reader tells from here, without going anywhere. -/
def ahead (reader : SourceReader α) : SourceReader α where
  run horizon setting lexed :=
    (reader.run horizon setting lexed).andThen fun result _ => .done result lexed
  foretells h setting lexed :=
    (reader.foretells h setting lexed).andThen fun _ _ => .done

/-- Goes where a reader goes, unless it tells no. -/
def tentatively (reader : SourceReader Bool) : SourceReader Bool where
  run horizon setting lexed :=
    (reader.run horizon setting lexed).andThen fun result behind =>
      .done result (if result then behind else lexed)
  foretells h setting lexed :=
    (reader.foretells h setting lexed).andThen fun result behind => by
      cases result <;> exact .done

def iterateFor (turn : σ → SourceReader (Turn σ α)) (horizon : Horizon) (setting : Setting) :
    Nat → σ → Lexed → Reading α
  | 0, _, _ => .unsettled
  | fuel + 1, state, lexed =>
    ((turn state).run horizon setting lexed).andThen fun
      | .again state, behind => iterateFor turn horizon setting fuel state behind
      | .last result, behind => .done result behind

theorem iterateFor_foretells {turn : σ → SourceReader (Turn σ α)} {more : Text}
    {near far : Horizon} (h : near.Foretells more far) {setting : Setting} {fuel fuel' : Nat}
    (hf : fuel ≤ fuel') (state : σ) (lexed : Lexed) :
    (iterateFor turn near setting fuel state lexed).Foretells more
      (iterateFor turn far setting fuel' state (lexed.extend more)) := by
  induction fuel generalizing fuel' state lexed with
  | zero => exact .unsettled
  | succ fuel ih =>
    obtain ⟨fuel', rfl⟩ := Nat.exists_eq_add_one_of_ne_zero (Nat.ne_zero_of_lt hf)
    refine ((turn state).foretells h setting lexed).andThen fun result behind => ?_
    cases result with
    | again state => exact ih (Nat.le_of_succ_le_succ hf) state behind
    | last => exact .done

/-- Takes turns until one is the last. -/
def iterate (turn : σ → SourceReader (Turn σ α)) (state : σ) : SourceReader α where
  run horizon setting lexed := iterateFor turn horizon setting horizon.limit state lexed
  foretells h _ lexed := iterateFor_foretells h h.limit state lexed

theorem isLocal_next : IsLocal fun lexed => some ((), lexed.next) := by
  intro lexed behind result hs hb more
  obtain ⟨-, rfl⟩ := Prod.mk.inj (Option.some.inj hs)
  exact congrArg (fun behind => some ((), behind)) (nextToken_settled hb more)

def advance : SourceReader Unit :=
  goes (fun lexed => some ((), lexed.next)) isLocal_next

/-- What a reader tells behind the token that stands here. -/
def behind (reader : SourceReader α) : SourceReader α :=
  ahead do
    advance
    reader

def foresee (reader : SourceReader Bool) : SourceReader Bool :=
  ahead do return (← attempt reader).getD false

@[inline] def sees (test : View → Bool) : SourceReader Bool := do
  return test (← look)

def seesMark (mark : Mark) : SourceReader Bool :=
  sees fun view => view.is mark

def seesOneOf (marks : List Mark) : SourceReader Bool :=
  sees fun view => view.isOneOf marks

@[inline] def seesWord (keyword : String) : SourceReader Bool :=
  sees fun view => view.isWord keyword

def typescript : SourceReader Bool := do
  return (← setting).language.typescript

def require (condition : Bool) : SourceReader Unit :=
  if condition then pure () else refuse

def standAt (mark : Mark) : SourceReader Unit := do
  require (← seesMark mark)

/-- Goes behind the token that stands here if it is told to. -/
def advanceIf (condition : SourceReader Bool) : SourceReader Bool := do
  if ← condition then
    advance
    return true
  else return false

def takes (mark : Mark) : SourceReader Bool :=
  advanceIf (seesMark mark)

/-- Takes a mark that only TypeScript has at this place. -/
def takesTyped (mark : Mark) : SourceReader Bool := do
  if ← typescript then takes mark else return false

@[inline] def takesWord (keyword : String) : SourceReader Bool :=
  advanceIf (seesWord keyword)

def expect (mark : Mark) : SourceReader Unit := do
  require (← takes mark)

@[inline] def expectWord (keyword : String) : SourceReader Unit := do
  require (← takesWord keyword)

def name : SourceReader Unit := do
  require (← sees View.isName)
  advance

def anyWord : SourceReader Unit := do
  require (← sees View.isAnyWord)
  advance

def string : SourceReader Unit := do
  match (← look).token with
  | .literal _ => advance
  | _ => refuse

/-- The end of a statement: its semicolon, or a place where it may be left out. -/
def endStatement : SourceReader Unit := do
  require (← sees View.endsStatement)
  discard (takes .semicolon)

/-- Takes turns as long as they tell to go on. -/
def repeatedly (step : SourceReader Bool) : SourceReader Unit :=
  iterate (fun _ => do if ← step then return .again () else return .last ()) ()

def elementTurn (close : Mark) (element : SourceReader α) (found : List α) :
    SourceReader (Turn (List α) (List α)) := do
  if ← seesMark close then return .last found
  let found := (← element) :: found
  if ← takes .comma then return .again found else return .last found

/-- Elements with commas between them, and perhaps one behind the last, in front of a closing
mark. -/
def elementsBefore (close : Mark) (element : SourceReader α) : SourceReader (List α) := do
  return (← iterate (elementTurn close element) []).reverse

def elements (close : Mark) (element : SourceReader α) : SourceReader (List α) := do
  let found ← elementsBefore close element
  expect close
  return found

def enclosed (opening close : Mark) (element : SourceReader α) : SourceReader (List α) := do
  expect opening
  elements close element

/-- Items with commas between them, of which there is at least one. -/
def separated (item : SourceReader Unit) : SourceReader Unit := do
  item
  repeatedly do
    if ← takes .comma then
      item
      return true
    else return false

/-- Phrases without anything between them, up to a closing brace. -/
def braced (phrase : SourceReader Unit) : SourceReader Unit := do
  expect .openBrace
  repeatedly do
    if ← sees fun view => view.is .closeBrace || view.isEnd then return false
    phrase
    return true
  expect .closeBrace

def pass (kind : Phrase) : SourceReader Unit :=
  discard (phrase kind)

def withIn (allowsIn : Bool) (reader : SourceReader α) : SourceReader α :=
  inSetting (fun setting => { setting with allowsIn := allowsIn }) reader

/-- A phrase inside brackets, where nothing around them counts. -/
def inside (reader : SourceReader α) : SourceReader α :=
  inSetting (fun setting => { setting with allowsIn := true, decorates := false }) reader

def inFunction (isAsync isGenerator : Bool) (reader : SourceReader α) : SourceReader α :=
  inSetting (fun setting => { setting with
    allowsIn := true, awaits := isAsync, yields := isGenerator, decorates := false,
    isPlainType := false }) reader

def withPlainTypes (isPlainType : Bool) (reader : SourceReader α) : SourceReader α :=
  inSetting (fun setting => { setting with isPlainType := isPlainType }) reader

end SourceReader

end DirectImports
