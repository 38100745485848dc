import DirectImports.Source.Language
import DirectImports.Source.Token

/-! What reading a source text leads to. A text may be cut off, and then whatever is told of it must
hold however it goes on. -/

namespace DirectImports

/-- What an expression may turn out to be: a name, a place that can be assigned to, a literal that
can be a pattern, or an assignment. -/
inductive Form where
  | name
  | place
  | pattern
  | assignment
  | other
deriving DecidableEq, Repr

namespace Form

def isPlace : Form → Bool
  | name => true
  | place => true
  | _ => false

def isTarget (form : Form) : Bool :=
  form.isPlace || form = pattern

def isElement (form : Form) : Bool :=
  form.isTarget || form = assignment

/-- The form of an expression in parentheses or with a type. -/
def wrapped (form : Form) : Form :=
  if form.isPlace then place else other

end Form

/-- The phrases that may hold each other. -/
inductive Phrase where
  | statement (isBody : Bool)
  | expression
  | assignment (allowsReturnType : Bool)
  | unary
  | operand
  | creation
  | binding
  | type
  | element
deriving DecidableEq, Repr

structure Setting where
  language : Language
  allowsIn : Bool
  awaits : Bool
  yields : Bool
  /-- Whether an operand decorates what follows, so that a bracket is no member of it. -/
  decorates : Bool
  /-- Whether a type has no conditions of its own. -/
  isPlainType : Bool

/-- A reading is done at some token or refused. It is unsettled where the answer may depend on what
stands behind a cut, and where the phrases are too many. -/
inductive Reading (α : Type) where
  | done (result : α) (behind : Lexed)
  | refused
  | unsettled

/-- What a reader has around it: the phrases that lie deeper, a bound on the number of phrases in a
row, and whether the text is cut off. -/
structure Horizon where
  phrases : Phrase → Setting → Lexed → Reading Form
  limit : Nat
  isCut : Bool

namespace Reading

variable {α β : Type} {more : Text}

def extend (more : Text) : Reading α → Reading α
  | done result behind => .done result (behind.extend more)
  | refused => .refused
  | unsettled => .unsettled

def andThen (reading : Reading α) (next : α → Lexed → Reading β) : Reading β :=
  match reading with
  | done result behind => next result behind
  | refused => .refused
  | unsettled => .unsettled

/-- Whether the reading of a text that is cut off is that of the whole text, if it is settled. -/
def Foretells (more : Text) (near far : Reading α) : Prop :=
  near = .unsettled ∨ far = near.extend more

theorem Foretells.unsettled {far : Reading α} : Reading.unsettled.Foretells more far :=
  .inl rfl

theorem Foretells.refused : (Reading.refused : Reading α).Foretells more .refused :=
  .inr rfl

theorem Foretells.done {result : α} {behind : Lexed} :
    (Reading.done result behind).Foretells more (.done result (behind.extend more)) :=
  .inr rfl

theorem Foretells.andThen {near far : Reading α} {next next' : α → Lexed → Reading β}
    (h : near.Foretells more far)
    (hn : ∀ result behind, (next result behind).Foretells more
      (next' result (behind.extend more))) :
    (near.andThen next).Foretells more (far.andThen next') := by
  rcases h with rfl | rfl
  · exact .unsettled
  · cases near with
    | done result behind => exact hn result behind
    | refused => exact .refused
    | unsettled => exact .unsettled

end Reading

/-- A nearer horizon, that of a text which is cut off before `more`. -/
structure Horizon.Foretells (more : Text) (near far : Horizon) : Prop where
  isCut : near.isCut = true
  isWhole : far.isCut = false
  limit : near.limit ≤ far.limit
  phrases : ∀ phrase setting lexed, (near.phrases phrase setting lexed).Foretells more
    (far.phrases phrase setting (lexed.extend more))

end DirectImports
