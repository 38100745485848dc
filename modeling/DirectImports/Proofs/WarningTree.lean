import Mathlib.Data.List.Perm.Basic
import DirectImports.Proofs.ByteOrder
import DirectImports.Proofs.PositionOrder
import DirectImports.Proofs.Sorting
import DirectImports.Proofs.WordsAndLines
import DirectImports.Report

/-! The tree of warnings as text. Every warning has one entry, in the block of its file. The blocks
come in the order of the bytes of their names and the entries of a block in the order of their
places, so that it does not matter in which order the warnings come. -/

namespace DirectImports

namespace Warning

def status (warning : Warning) : Text :=
  if warning.isFixed then "fixed".toList else "barrel".toList

/-- A line with the place of a warning, its status and its statement, and an arrow line for each
line of its replacement. -/
def entryText (branch indent : String) (warning : Warning) : Text :=
  branch.toList ++ "  ".toList ++ decimal warning.position.line ++ ":".toList ++
    decimal warning.position.column ++ " ".toList ++ warning.status ++ " ".toList ++
      oneLine warning.statement ++ ['\n'] ++
        (lines (warning.replacement.getD [])).flatMap fun line =>
          indent.toList ++ "     → ".toList ++ line ++ ['\n']

/-- The white space of the statement is collapsed so that it fits a line, and the replacement is
taken line by line. -/
structure FitsLines (warning : Warning) : Prop where
  collapsed : ∃ words, HasWords warning.statement words ∧
    oneLine warning.statement = joinWith [' '] words
  unbroken : '\n' ∉ oneLine warning.statement
  arrows : HasLines (warning.replacement.getD []) (lines (warning.replacement.getD []))

theorem fitsLines (warning : Warning) : warning.FitsLines where
  collapsed := ⟨_, hasWords_words _, rfl⟩
  unbroken := notMem_joinWith (by decide) (hasWords_words _).unbroken
  arrows := hasLines_lines _

end Warning

/-- The warnings of one file. There is a last one. -/
structure WarningBlock where
  file : Text
  earlier : List Warning
  last : Warning

namespace WarningBlock

def warnings (block : WarningBlock) : List Warning :=
  block.earlier ++ [block.last]

def text (block : WarningBlock) : Text :=
  block.file ++ ['\n'] ++ block.earlier.flatMap (Warning.entryText "├──" "│  ") ++
    block.last.entryText "└──" "   " ++ ['\n']

end WarningBlock

def headerText : Text :=
  '⚠' :: " Barrel imports detected".toList ++ ['\n', '\n']

def summaryText (warnings : List Warning) : Text :=
  List.replicate 60 '─' ++ ['\n'] ++ "Summary".toList ++ ['\n'] ++
    "  Barrel imports: ".toList ++ decimal warnings.length ++ ['\n'] ++
  (if ∃ warning ∈ warnings, warning.isFixed = true then
    "  Fixed: ".toList ++ decimal (warnings.filter Warning.isFixed).length ++ ['\n']
  else []) ++
  (if ∃ warning ∈ warnings, warning.isFixed = false then
    "  Run with --fix to rewrite them.".toList ++ ['\n']
  else [])

section Rendering

namespace Fragment

@[simp] theorem render_plain (text : Text) : (plain text).render false = text := rfl

@[simp] theorem render_literal (text : String) : (literal text).render false = text.toList := rfl

@[simp] theorem render_bold (text : Text) : (bold text).render false = text := rfl

@[simp] theorem render_dimmed (text : Text) : (dimmed text).render false = text := rfl

@[simp] theorem render_colored (color : Color) (text : Text) :
    (colored color text).render false = text := rfl

@[simp] theorem render_boldColored (color : Color) (text : Text) :
    (boldColored color text).render false = text := rfl

@[simp] theorem render_number (n : Nat) : (number n).render false = decimal n := rfl

end Fragment

theorem renderLines_append (lines later : List Line) :
    renderLines false (lines ++ later) = renderLines false lines ++ renderLines false later :=
  List.flatMap_append

theorem renderLines_cons (line : Line) (later : List Line) : renderLines false (line :: later) =
    line.flatMap (Fragment.render false) ++ ['\n'] ++ renderLines false later :=
  List.flatMap_cons

theorem renderLines_nil : renderLines false [] = [] :=
  rfl

theorem renderLines_flatMap {α : Type} (parts : List α) (f : α → List Line) :
    renderLines false (parts.flatMap f) = parts.flatMap fun part => renderLines false (f part) :=
  List.flatMap_assoc

theorem renderLines_map (parts : List Text) (f : Text → Line) :
    renderLines false (parts.map f) =
      parts.flatMap fun part => (f part).flatMap (Fragment.render false) ++ ['\n'] := by
  rw [renderLines, List.flatMap_map]

theorem renderLines_warningLines (warning : Warning) (isLast : Bool) :
    renderLines false (warningLines warning isLast) =
      if isLast then warning.entryText "└──" "   " else warning.entryText "├──" "│  " := by
  rw [warningLines, renderLines_cons, renderLines_map]
  cases isLast <;> cases hf : warning.isFixed <;> simp [Warning.entryText, Warning.status, hf]

theorem branchLines_append (earlier : List Warning) (last : Warning) :
    branchLines (earlier ++ [last]) =
      (earlier.flatMap fun warning => warningLines warning false) ++ warningLines last true := by
  induction earlier with
  | nil => rfl
  | cons warning earlier ih =>
    obtain ⟨next, later, hlater⟩ : ∃ next later, earlier ++ [last] = next :: later :=
      List.exists_cons_of_ne_nil (List.concat_ne_nil last earlier)
    rw [List.flatMap_cons, List.append_assoc, ← ih, List.cons_append, hlater]
    rfl

theorem renderLines_fileLines {system : FileSystem} {warnings : List Warning} {block : WarningBlock}
    (h : warningsOf warnings block.file = block.warnings) :
    renderLines false (fileLines system none warnings block.file) = block.text := by
  rw [fileLines, renderLines_append, renderLines_append, h, WarningBlock.warnings,
    branchLines_append, renderLines_append, renderLines_flatMap]
  simp [renderLines_warningLines, renderLines_cons, renderLines_nil, displayPath, WarningBlock.text]

theorem renderLines_ite {p q : Prop} [Decidable p] [Decidable q] (h : p ↔ q) (line : Line) :
    renderLines false (if p then [line] else []) =
      if q then line.flatMap (Fragment.render false) ++ ['\n'] else [] := by
  by_cases hq : q
  · rw [if_pos hq, if_pos (h.mpr hq), renderLines_cons, renderLines_nil, List.append_nil]
  · rw [if_neg hq, if_neg (mt h.mp hq), renderLines_nil]

theorem countP_isFixed_pos_iff {warnings : List Warning} :
    0 < warnings.countP Warning.isFixed ↔ ∃ warning ∈ warnings, warning.isFixed = true :=
  List.countP_pos_iff

theorem countP_isFixed_lt_iff {warnings : List Warning} :
    warnings.countP Warning.isFixed < warnings.length ↔
      ∃ warning ∈ warnings, warning.isFixed = false := by
  rw [lt_iff_le_and_ne, and_iff_right List.countP_le_length, ne_eq, List.countP_eq_length]
  simp

theorem renderLines_summaryLines (warnings : List Warning) :
    renderLines false (summaryLines warnings) = summaryText warnings := by
  rw [summaryLines, renderLines_append, renderLines_append, renderLines_ite countP_isFixed_pos_iff,
    renderLines_ite countP_isFixed_lt_iff, List.countP_eq_length_filter, summaryText]
  generalize List.replicate 60 '─' = rule
  simp only [renderLines_cons, renderLines_nil, List.flatMap_cons, List.flatMap_nil,
    Fragment.render_dimmed, Fragment.render_bold, Fragment.render_literal,
    Fragment.render_boldColored, List.append_nil, List.append_assoc]
  rfl

end Rendering

section Files

theorem mem_distinct_iff {text : Text} {texts : List Text} : text ∈ distinct texts ↔ text ∈ texts := by
  induction texts with
  | nil => rfl
  | cons first texts ih =>
    rw [distinct, List.mem_cons, List.mem_filter, ih, List.mem_cons]
    by_cases hfirst : text = first <;> simp [hfirst]

theorem nodup_distinct (texts : List Text) : (distinct texts).Nodup := by
  induction texts with
  | nil => exact .nil
  | cons first texts ih =>
    rw [distinct, List.nodup_cons]
    exact ⟨by simp, ih.filter _⟩

variable {warnings : List Warning}

theorem mem_warnedFiles_iff {file : Text} :
    file ∈ warnedFiles warnings ↔ ∃ warning ∈ warnings, warning.file = file := by
  have hsorted : (warnedFiles warnings).Perm _ := List.mergeSort_perm _ _
  rw [hsorted.mem_iff, mem_distinct_iff, List.mem_map]

theorem warnedFiles_ascending (warnings : List Warning) :
    (warnedFiles warnings).Pairwise (· < ·) := by
  have hsorted : (warnedFiles warnings).Pairwise fun a b => textPrecedes a b = true := by
    refine List.pairwise_mergeSort (fun a b c => ?_) (fun a b => ?_) _
    · simpa only [textPrecedes_iff] using le_trans
    · simpa only [Bool.or_eq_true, textPrecedes_iff] using le_total a b
  have hperm : (warnedFiles warnings).Perm _ := List.mergeSort_perm _ _
  have hdistinct : (warnedFiles warnings).Nodup := hperm.nodup_iff.mpr (nodup_distinct _)
  refine hsorted.imp₂ (fun a b hab hne => ?_) hdistinct
  exact lt_of_le_of_ne ((textPrecedes_iff _ _).mp hab) hne

theorem warnedFiles_perm {other : List Warning} (h : warnings.Perm other) :
    warnedFiles other = warnedFiles warnings := by
  refine (warnedFiles_ascending other).eq_of_mem_iff (warnedFiles_ascending warnings) fun file => ?_
  simp only [mem_warnedFiles_iff, h.mem_iff]

end Files

section Places

namespace Position

theorem precedes_iff {a b : Position} : a.precedes b = true ↔ ¬b.IsBefore a := by
  simp only [precedes, IsBefore, Bool.or_eq_true, Bool.and_eq_true, decide_eq_true_eq, beq_iff_eq]
  omega

theorem precedes_antisymm {a b : Position} (hab : a.precedes b = true)
    (hba : b.precedes a = true) : a = b := by
  simp only [precedes_iff, IsBefore] at hab hba
  rw [Position.mk.injEq]
  omega

end Position

theorem Warning.precedes_trans (a b c : Warning) (hab : a.position.precedes b.position = true)
    (hbc : b.position.precedes c.position = true) : a.position.precedes c.position = true := by
  simp only [Position.precedes_iff, Position.IsBefore] at hab hbc ⊢
  omega

theorem Warning.precedes_total (a b : Warning) :
    (a.position.precedes b.position || b.position.precedes a.position) = true := by
  simp only [Bool.or_eq_true, Position.precedes_iff, Position.IsBefore]
  omega

variable {warnings : List Warning}

theorem warningsOf_perm_filter (warnings : List Warning) (file : Text) :
    (warningsOf warnings file).Perm (warnings.filter fun warning => warning.file = file) := by
  simp only [← beq_eq_decide]
  exact List.mergeSort_perm _ _

theorem mem_warningsOf_iff {file : Text} {warning : Warning} :
    warning ∈ warningsOf warnings file ↔ warning ∈ warnings ∧ warning.file = file := by
  rw [(warningsOf_perm_filter warnings file).mem_iff, List.mem_filter, decide_eq_true_eq]

theorem warningsOf_ordered (warnings : List Warning) (file : Text) :
    (warningsOf warnings file).Pairwise fun a b => a.position.precedes b.position = true :=
  List.pairwise_mergeSort Warning.precedes_trans Warning.precedes_total _

theorem warningsOf_stable (warnings : List Warning) (file : Text) (position : Position) :
    (warningsOf warnings file).filter (fun warning => warning.position = position) =
      warnings.filter fun warning => warning.file = file ∧ warning.position = position := by
  rw [warningsOf, filter_mergeSort Warning.precedes_trans Warning.precedes_total,
    List.filter_filter]
  · simp only [beq_eq_decide, Bool.decide_and, Bool.and_comm]
  · intro a b ha hb
    rw [Position.precedes_iff, of_decide_eq_true ha, of_decide_eq_true hb, Position.IsBefore]
    omega

/-- No two warnings have one file and one position. -/
def HaveOwnPlaces (warnings : List Warning) : Prop :=
  (warnings.map fun warning => (warning.file, warning.position)).Nodup

theorem warningsOf_perm {other : List Warning} (hp : HaveOwnPlaces warnings)
    (h : warnings.Perm other) (file : Text) : warningsOf other file = warningsOf warnings file := by
  have hfile := h.symm.filter fun warning => warning.file == file
  refine mergeSort_eq_of_perm Warning.precedes_trans Warning.precedes_total hfile
    fun a ha b hb hab hba => ?_
  obtain ⟨ha, hfirst⟩ := List.mem_filter.mp ha
  obtain ⟨hb, hsecond⟩ := List.mem_filter.mp hb
  refine List.inj_on_of_nodup_map hp ha hb ?_
  rw [eq_of_beq hfirst, eq_of_beq hsecond, Position.precedes_antisymm hab hba]

theorem warningTree_perm {other : List Warning} (hp : HaveOwnPlaces warnings)
    (h : warnings.Perm other) (system : FileSystem) (root : Option Text) :
    warningTree system root other = warningTree system root warnings := by
  have hfiles : fileLines system root other = fileLines system root warnings := by
    funext file
    rw [fileLines, fileLines, warningsOf_perm hp h]
  have hsummary : summaryLines other = summaryLines warnings := by
    rw [summaryLines, summaryLines, h.length_eq, h.countP_eq]
  rw [warningTree, warningTree, warnedFiles_perm h, hfiles, hsummary]

end Places

section Blocks

/-- Each warning stands in one of the blocks, which is that of its file. -/
structure AreBlocksOf (warnings : List Warning) (blocks : List WarningBlock) : Prop where
  ascending : blocks.Pairwise fun a b => bytesOf a.file < bytesOf b.file
  named : ∀ file, file ∈ blocks.map WarningBlock.file ↔ file ∈ warnings.map Warning.file
  each : ∀ block ∈ blocks,
    block.warnings.Perm (warnings.filter fun warning => warning.file = block.file)
  once : (blocks.flatMap WarningBlock.warnings).Perm warnings
  ordered : ∀ block ∈ blocks, block.warnings.Pairwise fun a b => ¬b.position.IsBefore a.position
  stable : ∀ block ∈ blocks, ∀ position,
    block.warnings.filter (fun warning => warning.position = position) =
      warnings.filter fun warning => warning.file = block.file ∧ warning.position = position

/-- A list is put together again from the parts that a function makes out. -/
theorem flatMap_filter_perm {α β : Type} [DecidableEq β] {f : α → β} {keys : List β} {list : List α}
    (hd : keys.Nodup) (hk : ∀ a ∈ list, f a ∈ keys) :
    (keys.flatMap fun key => list.filter fun a => f a = key).Perm list := by
  induction keys generalizing list with
  | nil =>
    cases list with
    | nil => exact .nil
    | cons a list => cases hk a (.head _)
  | cons key keys ih =>
    obtain ⟨hkey, hd⟩ := List.nodup_cons.mp hd
    have hothers : ∀ other ∈ keys, (list.filter fun a => f a = other) =
        (list.filter fun a => !decide (f a = key)).filter fun a => f a = other := by
      intro other hm
      rw [List.filter_filter]
      refine List.filter_congr fun a _ => ?_
      by_cases ha : f a = other
      · have hne : other ≠ key := fun h => hkey (h ▸ hm)
        simp [ha, hne]
      · simp [ha]
    have hrest : ∀ a ∈ list.filter fun a => !decide (f a = key), f a ∈ keys := by
      intro a ha
      obtain ⟨ha, hne⟩ := List.mem_filter.mp ha
      exact (List.mem_cons.mp (hk a ha)).resolve_left (by simpa using hne)
    rw [List.flatMap_cons, List.flatMap_congr hothers]
    exact ((ih hd hrest).append_left _).trans (List.filter_append_perm _ _)

theorem exists_blocks {warnings : List Warning} {files : List Text}
    (h : ∀ file ∈ files, warningsOf warnings file ≠ []) :
    ∃ blocks : List WarningBlock, blocks.map WarningBlock.file = files ∧
      ∀ block ∈ blocks, warningsOf warnings block.file = block.warnings := by
  induction files with
  | nil => exact ⟨[], rfl, nofun⟩
  | cons file files ih =>
    obtain ⟨hfile, h⟩ := List.forall_mem_cons.mp h
    obtain ⟨blocks, hfiles, hblocks⟩ := ih h
    obtain ⟨earlier, last, hlast⟩ := (List.eq_nil_or_concat _).resolve_left hfile
    rw [List.concat_eq_append] at hlast
    exact ⟨⟨file, earlier, last⟩ :: blocks, by rw [List.map_cons, hfiles],
      List.forall_mem_cons.mpr ⟨hlast, hblocks⟩⟩

theorem areBlocksOf_of_warnings {warnings : List Warning} {blocks : List WarningBlock}
    (hf : blocks.map WarningBlock.file = warnedFiles warnings)
    (hb : ∀ block ∈ blocks, warningsOf warnings block.file = block.warnings) :
    AreBlocksOf warnings blocks := by
  have hascending := warnedFiles_ascending warnings
  have heach : ∀ block ∈ blocks,
      block.warnings.Perm (warnings.filter fun warning => warning.file = block.file) := by
    intro block hm
    rw [← hb block hm]
    exact warningsOf_perm_filter warnings block.file
  have hnamed : ∀ file, file ∈ blocks.map WarningBlock.file ↔ file ∈ warnings.map Warning.file := by
    intro file
    rw [hf, mem_warnedFiles_iff, List.mem_map]
  constructor
  case ascending =>
    rw [← hf, List.pairwise_map] at hascending
    exact hascending.imp bytesOf_lt
  case named => exact hnamed
  case each => exact heach
  case once =>
    have hparts : (blocks.flatMap WarningBlock.warnings).Perm
        ((blocks.map WarningBlock.file).flatMap fun file =>
          warnings.filter fun warning => warning.file = file) := by
      rw [List.flatMap_map]
      exact List.Perm.flatMap_left _ heach
    have hdistinct : (blocks.map WarningBlock.file).Nodup := by
      rw [hf]
      exact hascending.imp ne_of_lt
    refine hparts.trans (flatMap_filter_perm hdistinct fun warning hm => ?_)
    exact (hnamed _).mpr (List.mem_map_of_mem hm)
  case ordered =>
    intro block hm
    rw [← hb block hm]
    exact (warningsOf_ordered warnings block.file).imp Position.precedes_iff.mp
  case stable =>
    intro block hm position
    rw [← hb block hm]
    exact warningsOf_stable warnings block.file position

theorem renderLines_warningTree {warnings : List Warning} {blocks : List WarningBlock}
    (hf : blocks.map WarningBlock.file = warnedFiles warnings)
    (hb : ∀ block ∈ blocks, warningsOf warnings block.file = block.warnings) (system : FileSystem) :
    renderLines false (warningTree system none warnings) =
      headerText ++ blocks.flatMap WarningBlock.text ++ summaryText warnings := by
  rw [warningTree, renderLines_append, renderLines_append, renderLines_summaryLines, ← hf,
    List.flatMap_map, renderLines_flatMap,
    List.flatMap_congr fun block hm => renderLines_fileLines (hb block hm)]
  rfl

/-- The report of warnings is a header, a block for each file and a summary. If no two warnings have
one place, their order does not matter. -/
theorem warningTree_shows (system : FileSystem) (warnings : List Warning) :
    (∃ blocks, AreBlocksOf warnings blocks ∧
      renderLines false (warningTree system none warnings) =
        headerText ++ blocks.flatMap WarningBlock.text ++ summaryText warnings) ∧
    (∀ warning ∈ warnings, warning.FitsLines) ∧
    (HaveOwnPlaces warnings → ∀ other, warnings.Perm other →
      renderLines false (warningTree system none other) =
        renderLines false (warningTree system none warnings)) := by
  refine ⟨?_, fun warning _ => warning.fitsLines, fun hp other h => ?_⟩
  · have hwarned : ∀ file ∈ warnedFiles warnings, warningsOf warnings file ≠ [] := by
      intro file hm
      obtain ⟨warning, hw, hfile⟩ := mem_warnedFiles_iff.mp hm
      exact List.ne_nil_of_mem (mem_warningsOf_iff.mpr ⟨hw, hfile⟩)
    obtain ⟨blocks, hf, hb⟩ := exists_blocks hwarned
    exact ⟨blocks, areBlocksOf_of_warnings hf hb, renderLines_warningTree hf hb system⟩
  · rw [warningTree_perm hp h]

end Blocks

def firstWarning : Warning where
  file := "a.ts".toList
  position := ⟨1, 1⟩
  statement := "import A,\n  * as B\nfrom 'l';".toList
  message := []
  replacement := some "import A from \"l/a\";\nimport B from \"l/b\";".toList
  isFixed := true

def secondWarning : Warning where
  file := "b.ts".toList
  position := ⟨1, 5⟩
  statement := "import C from 'l';".toList
  message := []
  replacement := none
  isFixed := false

def thirdWarning : Warning :=
  { secondWarning with position := ⟨2, 1⟩ }

/-- Warnings of two files that come mixed up have the blocks of those that come file by file. -/
theorem mixedWarnings_shown :
    HaveOwnPlaces [firstWarning, secondWarning, thirdWarning] ∧
    [firstWarning, secondWarning, thirdWarning].Perm [thirdWarning, firstWarning, secondWarning] ∧
    renderLines false (warningTree ⟨[], none⟩ none [thirdWarning, firstWarning, secondWarning]) =
      headerText ++ [⟨"a.ts".toList, [], firstWarning⟩,
        ⟨"b.ts".toList, [secondWarning], thirdWarning⟩].flatMap WarningBlock.text ++
          summaryText [firstWarning, secondWarning, thirdWarning] := by
  have hp : HaveOwnPlaces [firstWarning, secondWarning, thirdWarning] := by
    unfold HaveOwnPlaces
    decide +kernel
  have hmixed : [firstWarning, secondWarning, thirdWarning].Perm
      [thirdWarning, firstWarning, secondWarning] := by
    decide +kernel
  have hfiles : warnedFiles [firstWarning, secondWarning, thirdWarning] =
      ["a.ts".toList, "b.ts".toList] :=
    List.mergeSort_of_pairwise (by decide +kernel)
  have hfirst : warningsOf [firstWarning, secondWarning, thirdWarning] "a.ts".toList =
      [firstWarning] :=
    List.mergeSort_of_pairwise (by decide +kernel)
  have hlater : warningsOf [firstWarning, secondWarning, thirdWarning] "b.ts".toList =
      [secondWarning, thirdWarning] :=
    List.mergeSort_of_pairwise (by decide +kernel)
  refine ⟨hp, hmixed, ?_⟩
  rw [(warningTree_shows _ _).2.2 hp _ hmixed]
  refine renderLines_warningTree ?_ ?_ _
  · exact hfiles.symm
  · exact List.forall_mem_cons.mpr ⟨hfirst, List.forall_mem_singleton.mpr hlater⟩

end DirectImports
