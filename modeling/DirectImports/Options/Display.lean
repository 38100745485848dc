import DirectImports.Pattern
import DirectImports.Text.Blank
import DirectImports.Text.Quoted

/-! Rule options as text for inspection, on one line or with every part on a line of its own. -/

namespace DirectImports

/-- Text in nested groups. An item of a group may have a label, and the brackets of a spaced
group stand off from its items. -/
inductive Display where
  | word (text : Text)
  | group (opening closing : Text) (spaced : Bool) (items : List (Text × Display))

/-- Puts a label in front of the first line and a comma behind the last one. -/
def itemLines (label : Text) (lines : List Text) : List Text :=
  let lines :=
    match lines with
    | [] => [label]
    | line :: lines => (label ++ line) :: lines
  lines.dropLast ++ [lines.getLastD [] ++ [',']]

namespace Display

mutual

def inLine : Display → Text
  | .word text => text
  | .group opening closing _ [] => opening ++ closing
  | .group opening closing spaced (item :: items) =>
    let space := if spaced then [' '] else []
    opening ++ space ++ joinWith ", ".toList (inLineItems (item :: items)) ++ space ++ closing

def inLineItems : List (Text × Display) → List Text
  | [] => []
  | (label, value) :: items => (label ++ value.inLine) :: inLineItems items

end

mutual

def lines : Display → List Text
  | .word text => [text]
  | .group opening closing _ [] => [opening ++ closing]
  | .group opening closing _ (item :: items) =>
    opening :: (linesOfItems (item :: items)).map ("    ".toList ++ ·) ++ [closing]

def linesOfItems : List (Text × Display) → List Text
  | [] => []
  | (label, value) :: items => itemLines label value.lines ++ linesOfItems items

end

def onLines (display : Display) : Text :=
  joinWith ['\n'] display.lines

def ofText (text : Text) : Display :=
  word (quoted text)

def ofList (items : List Display) : Display :=
  group ['['] [']'] false (items.map fun item => ([], item))

def call (name : String) (item : Display) : Display :=
  group (name.toList ++ ['(']) [')'] false [([], item)]

def ofOption : Option Display → Display
  | none => word "None".toList
  | some item => call "Some" item

def record (name : String) (fields : List (String × Display)) : Display :=
  group (name.toList ++ [' ', '\x7b']) ['\x7d'] true
    (fields.map fun (field, value) => (field.toList ++ [':', ' '], value))

end Display

def NameTransform.display : NameTransform → Display
  | lowercase => .word "Lowercase".toList
  | kebabCase => .word "KebabCase".toList
  | camelCase => .word "CamelCase".toList
  | custom _ => .word "Custom(<fn>)".toList
  | unrecognized token => .call "Unrecognized" (.ofText token)

def NamedExports.display (exports : NamedExports) : Display :=
  .record "NamedExportConfig" [
    ("suffixes", .ofList (exports.suffixes.map Display.ofText)),
    ("custom_pattern", .ofOption (exports.customPattern.map Display.ofText)),
    ("transform_import_name", .ofOption (exports.transform.map fun _ => .ofText "<fn>".toList))]

def BarrelPattern.display (pattern : BarrelPattern) : Display :=
  .record "BarrelPattern" [
    ("barrel", .ofText pattern.barrel),
    ("transform_pattern", .ofText pattern.transformPattern),
    ("transform_import_name", .ofOption (pattern.transformImportName.map NameTransform.display)),
    ("named_exports", .ofOption (pattern.namedExports.map NamedExports.display))]

def RuleOptions.display (options : RuleOptions) : Display :=
  .record "RuleOptions" [("patterns", .ofList (options.patterns.map BarrelPattern.display))]

end DirectImports
