import DirectImports.Check

/-! The report of a check on a terminal: the warnings of each file as a tree, then a summary. -/

namespace DirectImports

inductive Color where
  | green
  | yellow
  | cyan
  | brightBlue
  | brightWhite
deriving DecidableEq, Repr

structure Style where
  bold : Bool
  dimmed : Bool
  color : Option Color
deriving DecidableEq, Repr

def Color.code : Color → String
  | green => "32"
  | yellow => "33"
  | cyan => "36"
  | brightBlue => "94"
  | brightWhite => "97"

def Style.sequence (style : Style) : Text :=
  let codes := (if style.bold then ["1"] else []) ++ (if style.dimmed then ["2"] else []) ++
    (style.color.map Color.code).toList
  "\x1b[".toList ++ joinWith [';'] (codes.map String.toList) ++ ['m']

def resetSequence : Text :=
  "\x1b[0m".toList

inductive Fragment where
  | plain (text : Text)
  | styled (style : Style) (text : Text)
deriving DecidableEq, Repr

namespace Fragment

def literal (text : String) : Fragment :=
  plain text.toList

def bold (text : Text) : Fragment :=
  styled ⟨true, false, none⟩ text

def dimmed (text : Text) : Fragment :=
  styled ⟨false, true, none⟩ text

def colored (color : Color) (text : Text) : Fragment :=
  styled ⟨false, false, some color⟩ text

def boldColored (color : Color) (text : Text) : Fragment :=
  styled ⟨true, false, some color⟩ text

def number (n : Nat) : Fragment :=
  colored .cyan (decimal n)

/-- Takes up a style again behind every reset inside a text; `skip` characters belong to a
reset. -/
def restyle (sequence : Text) : Nat → Text → Text
  | _, [] => []
  | 0, c :: text =>
    if resetSequence.isPrefixOf (c :: text) then
      c :: restyle sequence (resetSequence.length - 1) text
    else c :: restyle sequence 0 text
  | 1, c :: text => c :: sequence ++ restyle sequence 0 text
  | skip + 2, c :: text => c :: restyle sequence (skip + 1) text

/-- The text of a fragment, with or without terminal sequences. -/
def render (color : Bool) : Fragment → Text
  | plain text => text
  | styled style text =>
    if color then style.sequence ++ restyle style.sequence 0 text ++ resetSequence else text

end Fragment

abbrev Line := List Fragment

def renderLines (color : Bool) (lines : List Line) : Text :=
  lines.flatMap fun line => line.flatMap (Fragment.render color) ++ ['\n']

def distinct : List Text → List Text
  | [] => []
  | text :: texts => text :: (distinct texts).filter (· ≠ text)

def warnedFiles (warnings : List Warning) : List Text :=
  (distinct (warnings.map Warning.file)).mergeSort textPrecedes

def Position.precedes (a b : Position) : Bool :=
  a.line < b.line || (a.line == b.line && a.column ≤ b.column)

def warningsOf (warnings : List Warning) (file : Text) : List Warning :=
  (warnings.filter fun warning => warning.file == file).mergeSort fun a b =>
    a.position.precedes b.position

/-- The lines of a warning: its place and statement, then its replacement. -/
def warningLines (warning : Warning) (isLast : Bool) : List Line :=
  let branch := if isLast then "└──" else "├──"
  let indent := if isLast then "   " else "│  "
  let status := if warning.isFixed then Fragment.colored .green "fixed".toList
    else Fragment.colored .yellow "barrel".toList
  [.dimmed branch.toList, .literal "  ", .number warning.position.line, .literal ":",
    .number warning.position.column, .literal " ", status, .literal " ",
    .plain (oneLine warning.statement)] ::
  (lines (warning.replacement.getD [])).map fun line =>
    [.dimmed indent.toList, .literal "     ", .dimmed "→".toList, .literal " ",
      .colored .green line]

def branchLines : List Warning → List Line
  | [] => []
  | [warning] => warningLines warning true
  | warning :: warnings => warningLines warning false ++ branchLines warnings

/-- The path of a file as seen from the current directory. Without a root or a current directory
it stays as it is. -/
def displayPath (system : FileSystem) (root : Option Text) (file : Text) : Text :=
  match root, system.currentPath with
  | some root, .ok here => (relativePath? (joinPath root file) here).getD file
  | _, _ => file

def fileLines (system : FileSystem) (root : Option Text) (warnings : List Warning)
    (file : Text) : List Line :=
  [[.boldColored .brightWhite (displayPath system root file)]] ++
    branchLines (warningsOf warnings file) ++ [[]]

def summaryLines (warnings : List Warning) : List Line :=
  let total := warnings.length
  let fixed := warnings.countP Warning.isFixed
  [[.dimmed (List.replicate 60 '─')], [.bold "Summary".toList],
    [.literal "  Barrel imports: ", .boldColored .yellow (decimal total)]] ++
  (if fixed > 0 then [[.literal "  Fixed: ", .boldColored .green (decimal fixed)]] else []) ++
  (if fixed < total then
    [[.literal "  Run with ", .bold "--fix".toList, .literal " to rewrite them."]]
  else [])

def warningTree (system : FileSystem) (root : Option Text) (warnings : List Warning) :
    List Line :=
  [[.boldColored .yellow "⚠".toList, .literal " Barrel imports detected"], []] ++
    (warnedFiles warnings).flatMap (fileLines system root warnings) ++ summaryLines warnings

def noBarrelLines (filesAnalyzed : Nat) : List Line :=
  [[.boldColored .green "✓".toList, .literal " No barrel imports found in ",
    .number filesAnalyzed, .literal " files."]]

/-- The tree of warnings, or the good news that there are none. -/
def resultLines (system : FileSystem) (root : Option Text) (result : CheckResult) : List Line :=
  if result.warnings.isEmpty then noBarrelLines result.filesAnalyzed
  else warningTree system root result.warnings

end DirectImports
