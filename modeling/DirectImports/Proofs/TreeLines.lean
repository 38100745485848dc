import Mathlib
import DirectImports.Proofs.CollapsedText
import DirectImports.Proofs.WarningTree

/-! The number of lines of a report. Nothing that is put into a line breaks it, so that the report
has as many line feeds as lines. -/

namespace DirectImports

section Rendering

theorem Style.notMem_sequence (style : Style) : '\n' ∉ style.sequence := by
  obtain ⟨bold, dimmed, color⟩ := style
  rcases color with _ | color
  · cases bold <;> cases dimmed <;> decide
  · cases bold <;> cases dimmed <;> cases color <;> decide

namespace Fragment

/-- What a fragment shows, whatever its style is. -/
def text : Fragment → Text
  | plain text => text
  | styled _ text => text

theorem mem_restyle {sequence : Text} {skip : Nat} {c : Char} {text : Text}
    (h : c ∈ restyle sequence skip text) : c ∈ sequence ∨ c ∈ text := by
  fun_induction restyle sequence skip text with
  | case1 => exact .inr h
  | case2 d text _ ih | case3 d text _ ih | case5 _ d text ih =>
    rcases List.mem_cons.mp h with rfl | h
    · exact .inr (.head _)
    · exact (ih h).imp_right (List.mem_cons_of_mem _)
  | case4 d text ih =>
    rw [List.cons_append, List.mem_cons, List.mem_append] at h
    rcases h with rfl | h | h
    · exact .inr (.head _)
    · exact .inl h
    · exact (ih h).imp_right (List.mem_cons_of_mem _)

theorem notMem_render {fragment : Fragment} (h : '\n' ∉ fragment.text) (color : Bool) :
    '\n' ∉ fragment.render color := by
  cases fragment with
  | plain text => exact h
  | styled style text =>
    cases color with
    | false => exact h
    | true =>
      have hreset : '\n' ∉ resetSequence := by decide
      have htext : '\n' ∉ restyle style.sequence 0 text := fun hm =>
        (mem_restyle hm).elim style.notMem_sequence h
      simp [render, style.notMem_sequence, htext, hreset]

end Fragment

/-- A line in which nothing breaks it. -/
def Line.IsUnbroken (line : Line) : Prop :=
  ∀ fragment ∈ line, '\n' ∉ fragment.text

theorem count_renderLines {lines : List Line} (h : ∀ line ∈ lines, Line.IsUnbroken line)
    (color : Bool) : (renderLines color lines).count '\n' = lines.length := by
  induction lines with
  | nil => rfl
  | cons line lines ih =>
    obtain ⟨hline, h⟩ := List.forall_mem_cons.mp h
    have hnone : '\n' ∉ line.flatMap (Fragment.render color) := by
      rw [List.mem_flatMap]
      rintro ⟨fragment, hm, hbreak⟩
      exact Fragment.notMem_render (hline fragment hm) color hbreak
    have hlater : (renderLines color lines).count '\n' = lines.length := ih h
    rw [renderLines, List.flatMap_cons, List.count_append, List.count_append,
      List.count_eq_zero.mpr hnone, List.length_cons, ← hlater, renderLines]
    exact Nat.add_comm _ _

end Rendering

section Lines

theorem notMem_decimal (n : Nat) : '\n' ∉ decimal n := fun h => by
  have hdigit := Nat.isDigit_of_mem_toDigits (by decide) (by decide) h
  revert hdigit
  decide

theorem HasLines.unbroken {text : Text} {lines : List Text} (h : HasLines text lines) :
    ∀ line ∈ lines, '\n' ∉ line := by
  induction h with
  | nil => nofun
  | last _ hline => exact List.forall_mem_singleton.mpr hline
  | feed hline _ _ ih | returnFeed hline _ ih => exact List.forall_mem_cons.mpr ⟨hline, ih⟩

/-- How many lines the replacement of a warning has. -/
def Warning.arrowCount (warning : Warning) : Nat :=
  warning.replacement.elim 0 fun replacement => (lines replacement).length

theorem length_warningLines (warning : Warning) (isLast : Bool) :
    (warningLines warning isLast).length = 1 + warning.arrowCount := by
  rw [warningLines, List.length_cons, List.length_map, Nat.add_comm, Warning.arrowCount]
  cases warning.replacement <;> rfl

theorem warningLines_unbroken (warning : Warning) (isLast : Bool) :
    ∀ line ∈ warningLines warning isLast, Line.IsUnbroken line := by
  refine List.forall_mem_cons.mpr ⟨?_, List.forall_mem_map.mpr fun line hm => ?_⟩
  · have hstatement := warning.fitsLines.unbroken
    cases isLast <;> cases warning.isFixed <;>
      simp [Line.IsUnbroken, Fragment.text, Fragment.dimmed, Fragment.literal, Fragment.number,
        Fragment.colored, notMem_decimal, hstatement]
  · have hline := warning.fitsLines.arrows.unbroken line hm
    cases isLast <;>
      simp [Line.IsUnbroken, Fragment.text, Fragment.dimmed, Fragment.literal, Fragment.colored,
        hline]

theorem length_branchLines (warnings : List Warning) : (branchLines warnings).length =
    (warnings.map fun warning => 1 + warning.arrowCount).sum := by
  fun_induction branchLines warnings with
  | case1 => rfl
  | case2 warning => simp [length_warningLines]
  | case3 warning later _ ih => simp [length_warningLines, ih]

theorem branchLines_unbroken (warnings : List Warning) :
    ∀ line ∈ branchLines warnings, Line.IsUnbroken line := by
  fun_induction branchLines warnings with
  | case1 => nofun
  | case2 warning => exact warningLines_unbroken warning true
  | case3 warning later _ ih =>
    exact List.forall_mem_append.mpr ⟨warningLines_unbroken warning false, ih⟩

variable (system : FileSystem) (warnings : List Warning)

theorem length_fileLines (root : Option Text) (file : Text) :
    (fileLines system root warnings file).length =
      2 + ((warnings.filter fun warning => warning.file = file).map
        fun warning => 1 + warning.arrowCount).sum := by
  have hsum := ((warningsOf_perm_filter warnings file).map
    fun warning => 1 + warning.arrowCount).sum_eq
  rw [fileLines, List.length_append, List.length_append, length_branchLines, hsum]
  exact Nat.add_right_comm _ _ _

theorem fileLines_unbroken {file : Text} (h : '\n' ∉ file) :
    ∀ line ∈ fileLines system none warnings file, Line.IsUnbroken line := by
  refine List.forall_mem_append.mpr ⟨List.forall_mem_append.mpr ⟨?_, ?_⟩, ?_⟩
  · exact List.forall_mem_singleton.mpr (List.forall_mem_singleton.mpr h)
  · exact branchLines_unbroken _
  · exact List.forall_mem_singleton.mpr nofun

theorem length_summaryLines : (summaryLines warnings).length =
    3 + (if ∃ warning ∈ warnings, warning.isFixed = true then 1 else 0) +
      (if ∃ warning ∈ warnings, warning.isFixed = false then 1 else 0) := by
  rw [summaryLines, List.length_append, List.length_append, apply_ite List.length,
    apply_ite List.length]
  simp only [gt_iff_lt, countP_isFixed_pos_iff, countP_isFixed_lt_iff]
  rfl

theorem summaryLines_unbroken : ∀ line ∈ summaryLines warnings, Line.IsUnbroken line := by
  have hrule : '\n' ∉ List.replicate 60 '─' := by decide
  refine List.forall_mem_append.mpr ⟨List.forall_mem_append.mpr ⟨?_, ?_⟩, ?_⟩
  · generalize List.replicate 60 '─' = rule at hrule
    simp [Line.IsUnbroken, Fragment.text, Fragment.dimmed, Fragment.bold, Fragment.literal,
      Fragment.boldColored, notMem_decimal, hrule]
  · split
    · simp [Line.IsUnbroken, Fragment.text, Fragment.literal, Fragment.boldColored, notMem_decimal]
    · nofun
  · split
    · simp [Line.IsUnbroken, Fragment.text, Fragment.literal, Fragment.bold]
    · nofun

theorem length_warningTree (root : Option Text) : (warningTree system root warnings).length =
    2 + ∑ file ∈ (warnings.map Warning.file).toFinset,
      (2 + ((warnings.filter fun warning => warning.file = file).map
        fun warning => 1 + warning.arrowCount).sum) + (summaryLines warnings).length := by
  have hfiles : (warnedFiles warnings).toFinset = (warnings.map Warning.file).toFinset := by
    ext file
    rw [List.mem_toFinset, List.mem_toFinset, mem_warnedFiles_iff, List.mem_map]
  have hdistinct : (warnedFiles warnings).Nodup := (warnedFiles_ascending warnings).imp ne_of_lt
  rw [warningTree, List.length_append, List.length_append, List.length_flatMap, ← hfiles,
    List.sum_toFinset _ hdistinct]
  simp only [length_fileLines]
  rfl

theorem warningTree_unbroken {warnings : List Warning}
    (h : ∀ warning ∈ warnings, '\n' ∉ warning.file) :
    ∀ line ∈ warningTree system none warnings, Line.IsUnbroken line := by
  refine List.forall_mem_append.mpr ⟨List.forall_mem_append.mpr ⟨?_, ?_⟩, ?_⟩
  · simp [Line.IsUnbroken, Fragment.text, Fragment.literal, Fragment.boldColored]
  · intro line hm
    obtain ⟨file, hfile, hline⟩ := List.mem_flatMap.mp hm
    obtain ⟨warning, hw, rfl⟩ := mem_warnedFiles_iff.mp hfile
    exact fileLines_unbroken system warnings (h warning hw) line hline
  · exact summaryLines_unbroken warnings

end Lines

/-- A statement that is put on one line loses white space only, so that the report has a line for
each warning and one for each line of a replacement, whatever the statements are. -/
theorem collapsing_keeps_layout :
    (∀ text, Collapses text (oneLine text) ∧ oneLine (oneLine text) = oneLine text) ∧
    ∀ system color warnings, (∀ warning ∈ warnings, '\n' ∉ warning.file) →
      (renderLines color (warningTree system none warnings)).count '\n' =
        2 + ∑ file ∈ (warnings.map Warning.file).toFinset,
          (2 + ((warnings.filter fun warning => warning.file = file).map
            fun warning => 1 + warning.arrowCount).sum) +
        3 + (if ∃ warning ∈ warnings, warning.isFixed = true then 1 else 0) +
          (if ∃ warning ∈ warnings, warning.isFixed = false then 1 else 0) := by
  refine ⟨fun text => ⟨oneLine_collapses text, oneLine_oneLine text⟩, ?_⟩
  intro system color warnings h
  rw [count_renderLines (warningTree_unbroken system h), length_warningTree, length_summaryLines]
  simp only [Nat.add_assoc]

/-- A statement of three lines has one line in the report, and its replacement has two. -/
theorem mixedWarnings_counted :
    (∀ warning ∈ [thirdWarning, firstWarning, secondWarning], '\n' ∉ warning.file) ∧
    (renderLines true (warningTree ⟨[], none⟩ none
      [thirdWarning, firstWarning, secondWarning])).count '\n' = 16 := by
  have hfiles : ∀ warning ∈ [thirdWarning, firstWarning, secondWarning], '\n' ∉ warning.file := by
    decide
  refine ⟨hfiles, ?_⟩
  rw [collapsing_keeps_layout.2 _ _ _ hfiles]
  decide +kernel

end DirectImports
