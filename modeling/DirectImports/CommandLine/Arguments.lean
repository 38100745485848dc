import DirectImports.Configuration

/-! The arguments of a command. An option takes effect when the next one begins or the arguments
end, so that what is wrong with a later argument may show first. -/

namespace DirectImports

inductive UsageProblem where
  | unknownArgument
  | invalidValue
  | argumentConflict
  | tooManyValues
  | helpRequested
deriving DecidableEq, Repr

inductive OptionName where
  | root
  | config
  | entryGlob
  | fix
  | help
deriving DecidableEq, Repr

namespace OptionName

def text : OptionName → Text
  | root => "root".toList
  | config => "config".toList
  | entryGlob => "entry-glob".toList
  | fix => "fix".toList
  | help => "help".toList

def takesValue : OptionName → Bool
  | root | config | entryGlob => true
  | fix | help => false

def ofText? (known : List OptionName) (name : Text) : Option OptionName :=
  known.find? fun option => option.text == name

end OptionName

/-- Arguments as far as they have been read. An option waits for its value or, with the value,
for its turn. -/
structure ArgumentDraft where
  configuration : Configuration
  waiting : Option (OptionName × Option Text)
  optionsEnded : Bool

def setOnce (old : Option Text) (value : Text) : Except UsageProblem (Option Text) :=
  if old.isSome then throw .argumentConflict else return some value

/-- Sets a path, which may not be empty. -/
def setPath (old : Option Text) (value : Text) : Except UsageProblem (Option Text) := do
  let path ← setOnce old value
  if value = [] then throw .invalidValue else return path

def Configuration.set (configuration : Configuration) (name : OptionName) (value : Text) :
    Except UsageProblem Configuration :=
  match name with
  | .root => return { configuration with root := ← setPath configuration.root value }
  | .config =>
    return { configuration with optionsFile := ← setPath configuration.optionsFile value }
  | .entryGlob =>
    return { configuration with entryGlob := ← setOnce configuration.entryGlob value }
  | .fix | .help => throw .tooManyValues

namespace ArgumentDraft

def empty : ArgumentDraft :=
  ⟨.empty, none, false⟩

def settle (draft : ArgumentDraft) : Except UsageProblem ArgumentDraft :=
  match draft.waiting with
  | none => return draft
  | some (_, none) => throw .invalidValue
  | some (name, some value) =>
    return { draft with configuration := ← draft.configuration.set name value, waiting := none }

def raise (draft : ArgumentDraft) (name : OptionName) : Except UsageProblem ArgumentDraft := do
  let draft ← draft.settle
  if name = .fix then
    if draft.configuration.fix then throw .argumentConflict
    else return { draft with configuration := { draft.configuration with fix := true } }
  else throw .helpRequested

/-- An option by its name, with the value behind its equals sign if it has one. -/
def pushOption (draft : ArgumentDraft) (name : OptionName) (attached : Option Text) :
    Except UsageProblem ArgumentDraft := do
  if name.takesValue then
    let draft := { ← draft.settle with waiting := some (name, attached) }
    if attached.isSome then draft.settle else return draft
  else if attached.isSome then throw .tooManyValues
  else draft.raise name

/-- The name of a long option, and the value behind its first equals sign. -/
def splitOption (text : Text) : Text × Option Text :=
  (text.takeWhile (· ≠ '='), (text.dropWhile (· ≠ '=')).tail?)

def push (known : List OptionName) (draft : ArgumentDraft) (argument : Text) :
    Except UsageProblem ArgumentDraft :=
  if draft.optionsEnded then throw .unknownArgument
  else match argument with
  | ['-', '-'] => return { draft with optionsEnded := true }
  | '-' :: '-' :: text =>
    let (name, attached) := splitOption text
    match OptionName.ofText? known name with
    | some name => draft.pushOption name attached
    | none => throw .unknownArgument
  | '-' :: c :: _ => if c = 'h' then draft.raise .help else throw .unknownArgument
  | value =>
    match draft.waiting with
    | some (name, none) => return { draft with waiting := some (name, some value) }
    | _ => throw .unknownArgument

end ArgumentDraft

/-- The configuration that arguments give, of the options that are known. -/
def readArguments (known : List OptionName) (arguments : List Text) :
    Except UsageProblem Configuration := do
  let draft ← arguments.foldlM (ArgumentDraft.push known) .empty
  return (← draft.settle).configuration

def checkOptions : List OptionName :=
  [.root, .config, .entryGlob, .fix, .help]

def readConfiguration (arguments : List Text) : Except UsageProblem Configuration :=
  readArguments checkOptions arguments

end DirectImports
