import DirectImports.Text.Basic

/-! Globs of ignore files. A path is matched byte by byte, and of the wildcards only those for
directories go across a slash. -/

namespace DirectImports

inductive GlobProblem where
  | unopenedGroup
  | unclosedGroup
  | reversedRange (low high : Char)
  | danglingEscape
deriving DecidableEq, Repr

inductive GlobPiece where
  | byte (value : UInt8)
  | anyByte
  | anyRun
  /-- Any directories before the first name of a path. -/
  | leading
  /-- A slash, or a slash, any directories and a slash. -/
  | between
  /-- A slash and all that follows. -/
  | allBelow
  | oneOf (negated : Bool) (ranges : List (UInt8 × UInt8))
  | choice (branches : List (List GlobPiece))

def bytesOf (text : Text) : List UInt8 :=
  text.flatMap String.utf8EncodeChar

def slash : UInt8 := 47

/-- Whether `rest` accepts what stands behind some bytes with the property `inside`. -/
def afterRun (inside : UInt8 → Bool) (rest : List UInt8 → Bool) : List UInt8 → Bool
  | [] => rest []
  | b :: bytes => rest (b :: bytes) || (inside b && afterRun inside rest bytes)

/-- Whether `rest` accepts what stands behind some slash. -/
def afterSlash (rest : List UInt8 → Bool) : List UInt8 → Bool
  | [] => false
  | b :: bytes => (b == slash && rest bytes) || afterSlash rest bytes

mutual

/-- Whether a piece matches the beginning of some bytes and `rest` accepts what follows. -/
def GlobPiece.accepts : GlobPiece → (List UInt8 → Bool) → List UInt8 → Bool
  | .byte value, rest, b :: bytes => b == value && rest bytes
  | .anyByte, rest, b :: bytes => b != slash && rest bytes
  | .anyRun, rest, bytes => afterRun (· != slash) rest bytes
  | .leading, rest, bytes => rest bytes || afterSlash rest bytes
  | .between, rest, b :: bytes => b == slash && (rest bytes || afterSlash rest bytes)
  | .allBelow, rest, b :: bytes => b == slash && afterRun (fun _ => true) rest bytes
  | .oneOf negated ranges, rest, b :: bytes =>
    (ranges.any fun range => range.1 ≤ b && b ≤ range.2) != negated && rest bytes
  | .choice branches, rest, bytes =>
    (branches.isEmpty && rest bytes) || acceptsSome branches rest bytes
  | _, _, [] => false

def acceptsAll : List GlobPiece → (List UInt8 → Bool) → List UInt8 → Bool
  | [], rest, bytes => rest bytes
  | piece :: pieces, rest, bytes => piece.accepts (acceptsAll pieces rest) bytes

def acceptsSome : List (List GlobPiece) → (List UInt8 → Bool) → List UInt8 → Bool
  | [], _, _ => false
  | branch :: branches, rest, bytes =>
    acceptsAll branch rest bytes || acceptsSome branches rest bytes

end

/-- Whether a glob matches a path. Alone, a wildcard for directories matches every path. -/
def globMatches (glob : List GlobPiece) (path : Text) : Bool :=
  match glob with
  | [.leading] => true
  | pieces => acceptsAll pieces List.isEmpty (bytesOf path)

/-- A group that is open: the pieces before it and its finished branches, the latest first. -/
structure GlobGroup where
  before : List GlobPiece
  branches : List (List GlobPiece)

/-- A glob as far as it has been read; the latest piece comes first. -/
structure GlobDraft where
  previous : Option Char
  pieces : List GlobPiece
  groups : List GlobGroup
  hasOpenClass : Bool

namespace GlobDraft

def push (draft : GlobDraft) (piece : GlobPiece) : GlobDraft :=
  { draft with pieces := piece :: draft.pieces }

def pushChar (draft : GlobDraft) (c : Char) : GlobDraft :=
  { draft with pieces := ((String.utf8EncodeChar c).map GlobPiece.byte).reverse ++ draft.pieces }

def inGroup (draft : GlobDraft) : Bool :=
  !draft.groups.isEmpty

/-- A branch that matches nothing but the empty text, which a group leaves out. -/
def isBlank (branch : List GlobPiece) : Bool :=
  branch.all fun
    | .choice [] => true
    | _ => false

def openGroup (draft : GlobDraft) : GlobDraft :=
  { draft with pieces := [], groups := ⟨draft.pieces, []⟩ :: draft.groups }

def closeGroup (draft : GlobDraft) : Except GlobProblem GlobDraft :=
  match draft.groups with
  | [] => throw .unopenedGroup
  | group :: groups =>
    let branches := (draft.pieces.reverse :: group.branches).reverse
    let choice := GlobPiece.choice (branches.filter fun branch => !isBlank branch)
    return { draft with pieces := choice :: group.before, groups := groups }

/-- Outside a group a comma is a character like any other. -/
def comma (draft : GlobDraft) : GlobDraft :=
  match draft.groups with
  | [] => draft.pushChar ','
  | group :: groups =>
    let group := { group with branches := draft.pieces.reverse :: group.branches }
    { draft with pieces := [], groups := group :: groups }

/-- Two stars in the place of a whole name; `isLast` if nothing follows them. -/
def pushDirectories (draft : GlobDraft) (isLast : Bool) : GlobDraft :=
  let piece :=
    match draft.pieces.head? with
    | some .leading => .leading
    | some .allBelow => .allBelow
    | _ => if isLast then .allBelow else .between
  { draft with pieces := piece :: draft.pieces.drop 1 }

/-- Two stars; `rest` follows them. -/
def twoStars (draft : GlobDraft) (rest : Text) : GlobDraft × Text :=
  let run := (draft.push .anyRun, rest)
  let startsName := draft.previous = some '/' ∨
    draft.inGroup ∧ (draft.previous = some ',' ∨ draft.previous = some '\x7b')
  match rest with
  | '/' :: behind =>
    if draft.pieces.isEmpty then (draft.push .leading, behind)
    else if startsName then (draft.pushDirectories false, behind)
    else run
  | [] =>
    if draft.pieces.isEmpty then (draft.push .leading, [])
    else if startsName then (draft.pushDirectories true, [])
    else run
  | c :: _ =>
    if !draft.pieces.isEmpty ∧ startsName ∧ draft.inGroup ∧ (c = ',' ∨ c = '\x7d') then
      (draft.pushDirectories true, rest)
    else run

/-- The ranges of a class up to its bracket, the latest first; nothing if it has no end. -/
def readRanges (ranges : List (Char × Char)) (isFirst inRange : Bool) :
    Text → Except GlobProblem (Option (List (Char × Char) × Text))
  | [] => return none
  | c :: rest =>
    if c = ']' ∧ !isFirst then
      return some (if inRange then ('-', '-') :: ranges else ranges, rest)
    else if c = '-' ∧ !isFirst ∧ !inRange then readRanges ranges false true rest
    else
      match inRange, ranges with
      | true, (low, _) :: others =>
        if c < low then throw (.reversedRange low c)
        else readRanges ((low, c) :: others) false false rest
      | _, _ => readRanges ((c, c) :: ranges) false false rest

/-- A range of characters as ranges of bytes: of two characters with several bytes, the bytes
between the last of one and the first of the other. -/
def byteRanges (range : Char × Char) : List (UInt8 × UInt8) :=
  let low := String.utf8EncodeChar range.1
  let high := String.utf8EncodeChar range.2
  let single (b : UInt8) : UInt8 × UInt8 := (b, b)
  if range.1 = range.2 then low.map single
  else low.dropLast.map single ++ (low.getLastD 0, high.headD 0) :: (high.drop 1).map single

/-- A class behind its opening bracket, which stands for itself if the class has no end. -/
def readClass (draft : GlobDraft) (text : Text) : Except GlobProblem (GlobDraft × Text) := do
  let (negated, inside) :=
    match text with
    | '!' :: inside => (true, inside)
    | '^' :: inside => (true, inside)
    | _ => (false, text)
  match ← readRanges [] true false inside with
  | some (ranges, rest) =>
    let piece := GlobPiece.oneOf negated (ranges.flatMap byteRanges)
    return ({ draft with previous := some ']' }.push piece, rest)
  | none => return ({ draft with previous := some '[', hasOpenClass := true }.pushChar '[', text)

/-- Reads what begins with `c`; the draft knows the character before it. -/
def step (draft : GlobDraft) (c : Char) (rest : Text) : Except GlobProblem (GlobDraft × Text) := do
  let seen (draft : GlobDraft) : GlobDraft := { draft with previous := some c }
  match c with
  | '?' => return (seen (draft.push .anyByte), rest)
  | '*' =>
    match rest with
    | '*' :: behind =>
      let (read, behind) := draft.twoStars behind
      let last := if behind.length + 1 < rest.length then '/' else '*'
      return ({ read with previous := some last }, behind)
    | _ => return (seen (draft.push .anyRun), rest)
  | '[' =>
    if draft.hasOpenClass then return (seen (draft.pushChar c), rest) else draft.readClass rest
  | '\x7b' => return (seen draft.openGroup, rest)
  | '\x7d' => return (seen (← draft.closeGroup), rest)
  | ',' => return (seen draft.comma, rest)
  | '\\' =>
    match rest with
    | [] => throw .danglingEscape
    | d :: behind => return ({ draft with previous := some d }.pushChar d, behind)
  | _ => return (seen (draft.pushChar c), rest)

/-- Reads the rest of a glob; `fuel` is its length. -/
def readFrom : Nat → GlobDraft → Text → Except GlobProblem GlobDraft
  | fuel + 1, draft, c :: text => do
    let (draft, text) ← draft.step c text
    readFrom fuel draft text
  | _, draft, _ => return draft

end GlobDraft

def readGlob (text : Text) : Except GlobProblem (List GlobPiece) := do
  let draft ← GlobDraft.readFrom text.length ⟨none, [], [], false⟩ text
  if draft.inGroup then throw .unclosedGroup else return draft.pieces.reverse

end DirectImports
