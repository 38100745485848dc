import DirectImports.Proofs.FileChecks
import DirectImports.Proofs.Preparation
import DirectImports.Proofs.Schedule
import DirectImports.Proofs.WarningOrder

/-! What the check command tells of a project. Its counts, the order of its warnings, the lines that
it prints and its exit code say the same of the files that it has collected. -/

namespace DirectImports

open FileSystem

def Notice.isSkippedFile : Notice → Bool
  | skippedFile _ _ => true
  | _ => false

def hintLine : Line :=
  [.literal "  Run with ", .bold "--fix".toList, .literal " to rewrite them."]

section Counts

theorem fileChecks_add_skipNotices (checks : List (Text × Except Failure FileCheck)) :
    (fileChecks checks).length + (skipNotices checks).length = checks.length := by
  induction checks with
  | nil => rfl
  | cons check checks ih =>
    obtain ⟨file, check⟩ := check
    cases check with
    | error failure =>
      have hskip : skipNotices ((file, .error failure) :: checks) =
        .skippedFile file failure :: skipNotices checks := rfl
      rw [hskip, fileChecks_error, List.length_cons, List.length_cons]
      omega
    | ok found =>
      have hskip : skipNotices ((file, .ok found) :: checks) = skipNotices checks := rfl
      rw [hskip, fileChecks_ok, List.length_cons, List.length_cons]
      omega

theorem countP_skipNotices (checks : List (Text × Except Failure FileCheck)) :
    (skipNotices checks).countP Notice.isSkippedFile = (skipNotices checks).length := by
  refine List.countP_eq_length.mpr fun notice hm => ?_
  obtain ⟨⟨file, check⟩, -, hnotice⟩ := List.mem_filterMap.mp hm
  cases check with
  | error failure =>
    obtain rfl := Option.some.inj hnotice
    rfl
  | ok found => cases hnotice

theorem isSkippedFile_of_mem_notices {pattern : BarrelPattern} {notice : Notice}
    (h : notice ∈ pattern.notices) : notice.isSkippedFile = false := by
  rcases List.mem_append.mp h with h | h
  · split at h
    · cases h
    · obtain rfl := List.mem_singleton.mp h
      rfl
  · split at h
    · obtain rfl := List.mem_singleton.mp h
      rfl
    · cases h

theorem countP_optionsNotices (options : RuleOptions) :
    options.notices.countP Notice.isSkippedFile = 0 := by
  refine List.countP_eq_zero.mpr fun notice hm => ?_
  obtain ⟨pattern, -, hm⟩ := List.mem_flatMap.mp hm
  rw [isSkippedFile_of_mem_notices hm]
  exact Bool.false_ne_true

theorem countUnfixed_add (warnings : List Warning) :
    countUnfixed warnings + warnings.countP Warning.isFixed = warnings.length := by
  have hlength := List.length_eq_countP_add_countP Warning.isFixed (l := warnings)
  have hunfixed : warnings.countP (fun warning => decide ¬warning.isFixed = true) =
      countUnfixed warnings := by
    simp [countUnfixed]
  omega

end Counts

section Lines

/-- A line that is empty or begins with a styled piece. -/
def BeginsStyled (line : Line) : Prop :=
  line = [] ∨ ∃ style text rest, line = .styled style text :: rest

theorem not_beginsStyled_hintLine : ¬BeginsStyled hintLine := by
  rintro (h | ⟨style, text, rest, h⟩)
  · cases h
  · cases h

theorem beginsStyled_warningLines {warning : Warning} {isLast : Bool} {line : Line}
    (h : line ∈ warningLines warning isLast) : BeginsStyled line := by
  rcases List.mem_cons.mp h with rfl | h
  · exact .inr ⟨_, _, _, rfl⟩
  · obtain ⟨text, -, rfl⟩ := List.mem_map.mp h
    exact .inr ⟨_, _, _, rfl⟩

theorem beginsStyled_branchLines {warnings : List Warning} {line : Line}
    (h : line ∈ branchLines warnings) : BeginsStyled line := by
  induction warnings with
  | nil => cases h
  | cons warning warnings ih =>
    cases warnings with
    | nil => exact beginsStyled_warningLines h
    | cons next warnings =>
      rcases List.mem_append.mp h with h | h
      · exact beginsStyled_warningLines h
      · exact ih h

theorem beginsStyled_fileLines {system : FileSystem} {root : Option Text}
    {warnings : List Warning} {file : Text} {line : Line}
    (h : line ∈ fileLines system root warnings file) : BeginsStyled line := by
  rcases List.mem_append.mp h with h | h
  · rcases List.mem_append.mp h with h | h
    · obtain rfl := List.mem_singleton.mp h
      exact .inr ⟨_, _, _, rfl⟩
    · exact beginsStyled_branchLines h
  · obtain rfl := List.mem_singleton.mp h
    exact .inl rfl

theorem hintLine_ne_total (text : Text) :
    hintLine ≠ [.literal "  Barrel imports: ", .boldColored .yellow text] := by
  simp [hintLine]

theorem hintLine_ne_fixed (text : Text) :
    hintLine ≠ [.literal "  Fixed: ", .boldColored .green text] := by
  simp [hintLine]

theorem hintLine_mem_summaryLines (warnings : List Warning) :
    hintLine ∈ summaryLines warnings ↔ 0 < countUnfixed warnings := by
  have hadd := countUnfixed_add warnings
  constructor
  · intro h
    rcases List.mem_append.mp h with h | h
    · exfalso
      rcases List.mem_append.mp h with h | h
      · rcases List.mem_cons.mp h with h | h
        · exact not_beginsStyled_hintLine (.inr ⟨_, _, _, h⟩)
        · rcases List.mem_cons.mp h with h | h
          · exact not_beginsStyled_hintLine (.inr ⟨_, _, _, h⟩)
          · exact hintLine_ne_total _ (List.mem_singleton.mp h)
      · split at h
        · exact hintLine_ne_fixed _ (List.mem_singleton.mp h)
        · cases h
    · split at h
      · omega
      · cases h
  · intro h
    have hless : warnings.countP Warning.isFixed < warnings.length := by omega
    refine List.mem_append_right _ ?_
    rw [if_pos hless]
    exact .head _

/-- Only the summary of a tree has the hint. -/
theorem hintLine_mem_warningTree {system : FileSystem} {root : Option Text}
    {warnings : List Warning} :
    hintLine ∈ warningTree system root warnings ↔ hintLine ∈ summaryLines warnings := by
  constructor
  · intro h
    rcases List.mem_append.mp h with h | h
    · exfalso
      rcases List.mem_append.mp h with h | h
      · rcases List.mem_cons.mp h with h | h
        · exact not_beginsStyled_hintLine (.inr ⟨_, _, _, h⟩)
        · exact not_beginsStyled_hintLine (.inl (List.mem_singleton.mp h))
      · obtain ⟨file, -, h⟩ := List.mem_flatMap.mp h
        exact not_beginsStyled_hintLine (beginsStyled_fileLines h)
    · exact h
  · exact List.mem_append_right _

theorem hintLine_mem_resultLines (system : FileSystem) (root : Option Text)
    (result : CheckResult) :
    hintLine ∈ resultLines system root result ↔ 0 < countUnfixed result.warnings := by
  rw [resultLines]
  by_cases hw : result.warnings = []
  · have hnone : hintLine ∉ noBarrelLines result.filesAnalyzed := fun h =>
      not_beginsStyled_hintLine (.inr ⟨_, _, _, List.mem_singleton.mp h⟩)
    simp [hw, hnone, countUnfixed]
  · rw [if_neg (by simp [hw]), hintLine_mem_warningTree, hintLine_mem_summaryLines]

theorem warningTree_ne_noBarrelLines (system : FileSystem) (root : Option Text)
    (warnings : List Warning) (filesAnalyzed : Nat) :
    warningTree system root warnings ≠ noBarrelLines filesAnalyzed := by
  intro h
  have hlength := congrArg List.length h
  simp only [warningTree, noBarrelLines, List.length_append, List.length_cons,
    List.length_nil] at hlength
  omega

theorem resultLines_eq_noBarrelLines_iff {system : FileSystem} {root : Option Text}
    {result : CheckResult} :
    resultLines system root result = noBarrelLines result.filesAnalyzed ↔
      result.warnings = [] := by
  rw [resultLines]
  by_cases hw : result.warnings = []
  · simp [hw]
  · rw [if_neg (by simp [hw])]
    exact ⟨fun h => absurd h (warningTree_ne_noBarrelLines _ _ _ _), fun h => absurd h hw⟩

theorem resultLines_eq_warningTree_iff {system : FileSystem} {root : Option Text}
    {result : CheckResult} :
    resultLines system root result = warningTree system root result.warnings ↔
      result.warnings ≠ [] := by
  rw [resultLines]
  by_cases hw : result.warnings = []
  · rw [if_pos (by simp [hw])]
    exact ⟨fun h => absurd h.symm (warningTree_ne_noBarrelLines _ _ _ _), fun h => absurd hw h⟩
  · rw [if_neg (by simp [hw])]
    exact ⟨fun _ => hw, fun _ => rfl⟩

end Lines

section Groups

/-- Where items have names of their own, the warnings of a name are those of its item. -/
theorem filter_flatMap_of_named {ι : Type} {items : List ι} {name : ι → Text}
    {found : ι → List Warning} (hd : (items.map name).Nodup)
    (hn : ∀ item ∈ items, ∀ warning ∈ found item, warning.file = name item) :
    ∀ item ∈ items, ((items.flatMap found).filter fun warning => warning.file = name item) =
      found item := by
  induction items with
  | nil => exact nofun
  | cons first items ih =>
    obtain ⟨hnot, hd⟩ := List.nodup_cons.mp hd
    obtain ⟨hfirst, hlater⟩ := List.forall_mem_cons.mp hn
    have hother : ∀ item ∈ items, name item ≠ name first := by
      intro item hm hsame
      exact hnot (hsame ▸ List.mem_map_of_mem hm)
    intro item hm
    rw [List.flatMap_cons, List.filter_append]
    rcases List.mem_cons.mp hm with rfl | hm
    · have hall : ((found item).filter fun warning => warning.file = name item) = found item := by
        simpa [List.filter_eq_self] using hfirst
      have hnone : ((items.flatMap found).filter fun warning => warning.file = name item) = [] := by
        refine List.filter_eq_nil_iff.mpr fun warning hw => ?_
        obtain ⟨later, hl, hw⟩ := List.mem_flatMap.mp hw
        simpa [hlater later hl warning hw] using hother later hl
      rw [hall, hnone, List.append_nil]
    · have hnone : ((found first).filter fun warning => warning.file = name item) = [] := by
        refine List.filter_eq_nil_iff.mpr fun warning hw => ?_
        simpa [hfirst warning hw] using (hother item hm).symm
      rw [hnone, List.nil_append, ih hd hlater item hm]

/-- The warnings of a plan, file by file. -/
structure AreWarningsOfPlan (plan : CheckPlan) (warnings : List Warning) : Prop where
  grouped : warnings = plan.files.flatMap fun file =>
    warnings.filter fun warning => warning.file = warnedName plan.root file
  ofFile : ∀ file ∈ plan.files, AreWarningsOf (warnedName plan.root file) plan.fix
    (warnings.filter fun warning => warning.file = warnedName plan.root file)

theorem AreChecks.areWarningsOfPlan {plan : CheckPlan}
    {checks : List (Text × Except Failure FileCheck)} (h : AreChecks plan checks)
    (hd : (plan.files.map (warnedName plan.root)).Nodup) :
    AreWarningsOfPlan plan (CheckResult.ofFiles (fileChecks checks)).warnings := by
  rw [warnings_ofFiles]
  rw [← h.files, List.map_map] at hd
  have hfilter := filter_flatMap_of_named hd fun pair hm => (h.areWarningsOf hm).named
  constructor
  case grouped =>
    rw [← h.files, List.flatMap_map]
    exact (List.flatMap_congr hfilter).symm
  case ofFile =>
    intro file hf
    rw [← h.files] at hf
    obtain ⟨pair, hm, rfl⟩ := List.mem_map.mp hf
    have hwarnings := hfilter pair hm
    simp only [Function.comp_apply] at hwarnings
    rw [hwarnings]
    exact h.areWarningsOf hm

theorem AreWarningsOfPlan.countUnfixed_eq_zero {plan : CheckPlan} {warnings : List Warning}
    (h : AreWarningsOfPlan plan warnings) (hf : plan.fix = true) : countUnfixed warnings = 0 := by
  refine List.countP_eq_zero.mpr fun warning hw => ?_
  rw [h.grouped] at hw
  obtain ⟨file, hfile, hw⟩ := List.mem_flatMap.mp hw
  simp [(h.ofFile file hfile).marked warning hw, hf]

end Groups

/-- Everything that a check tells agrees with the files that it has collected. -/
structure RunAgrees (fix : Bool) (root : Text) (files : List Text) (run : CommandRun)
    (result : CheckResult) : Prop where
  outcome : run.outcome = .checked (some root) result
  counted : result.filesAnalyzed + run.notices.countP Notice.isSkippedFile = files.length
  filesFixed : result.filesFixed ≤ result.filesAnalyzed
  grouped : result.warnings = files.flatMap fun file =>
    result.warnings.filter fun warning => warning.file = warnedName root file
  ordered : ∀ file ∈ files,
    (result.warnings.filter fun warning => warning.file = warnedName root file).Pairwise
      fun a b => a.position.IsBefore b.position
  hinted : hintLine ∈ summaryLines result.warnings ↔ 0 < countUnfixed result.warnings
  hintShown : hintLine ∈ resultLines run.system (some root) result ↔
    0 < countUnfixed result.warnings
  code : ∀ color elapsed threads,
    (run.output color elapsed threads).code = 1 ↔ 0 < countUnfixed result.warnings
  codeFixed : fix = true → ∀ color elapsed threads, (run.output color elapsed threads).code = 0
  printed : ∀ color elapsed threads, (run.output color elapsed threads).standard =
    renderLines color (resultLines run.system (some root) result ++
      [[], finishLine elapsed threads result.filesAnalyzed])
  message : resultLines run.system (some root) result = noBarrelLines result.filesAnalyzed ↔
    result.warnings = []
  tree : resultLines run.system (some root) result =
    warningTree run.system (some root) result.warnings ↔ result.warnings ≠ []

section Command

variable {configuration : Configuration} {system : FileSystem} {plan : CheckPlan}

theorem countP_prepareNotices (hp : configuration.plan system = .ok plan) :
    (configuration.prepare system).notices.countP Notice.isSkippedFile = 0 := by
  obtain ⟨hr, ho, -⟩ := plan_eq_ok hp
  rw [prepare_of_found hr ho]
  simp only
  split
  · rfl
  · exact countP_optionsNotices _

/-- The check of a plan in which every file has its answer. -/
theorem runCheckCommand_of_checked (ht : system.IsTree) (hp : configuration.plan system = .ok plan)
    {after : FileSystem} {checks : List (Text × Except Failure FileCheck)}
    (hc : checkFiles plan.options plan.root plan.fix system plan.files = (after, checks))
    (ha : hasAborted checks = false) : runCheckCommand system configuration =
      ⟨after, (configuration.prepare system).notices ++ skipNotices checks,
        .checked (some plan.root) (.ofFiles (fileChecks checks))⟩ := by
  obtain ⟨hr, ho, -⟩ := plan_eq_ok hp
  have hroot : (configuration.prepare system).configuration.root = some plan.root := by
    rw [prepare_of_found hr ho]
    rfl
  rw [runCheckCommand_eq ht, runCheck_eq_of_plan hp, hroot]
  simp only [hc, checkOutcome, ha, Bool.false_eq_true, if_false]

theorem runCheckCommand_of_aborted (ht : system.IsTree) (hp : configuration.plan system = .ok plan)
    {after : FileSystem} {checks : List (Text × Except Failure FileCheck)}
    (hc : checkFiles plan.options plan.root plan.fix system plan.files = (after, checks))
    (ha : hasAborted checks = true) :
    (runCheckCommand system configuration).outcome = .failed .aborted := by
  rw [runCheckCommand_eq ht, runCheck_eq_of_plan hp]
  simp only [hc, checkOutcome, ha, if_true]

/-- Once the files have been collected, what the check command counts, warns of and prints and the
code that it exits with agree, unless a custom function gives no answer. -/
theorem checkCommand_consistent (ht : system.IsTree) (hp : configuration.plan system = .ok plan) :
    collectFiles system plan.root configuration.entryGlob = .ok plan.files ∧
      ((∃ result, RunAgrees configuration.fix plan.root plan.files
          (runCheckCommand system configuration) result) ∨
        ((runCheckCommand system configuration).outcome = .failed .aborted ∧
          ¬configuration.ReturnsNormally)) := by
  obtain ⟨-, -, hcollect, -, hfix⟩ := plan_eq_ok hp
  refine ⟨hcollect, ?_⟩
  have hchecks := areChecks_checkFiles plan system
  obtain ⟨⟨after, checks⟩, hc⟩ :
      ∃ run, checkFiles plan.options plan.root plan.fix system plan.files = run := ⟨_, rfl⟩
  rw [hc] at hchecks
  cases ha : hasAborted checks with
  | true =>
    refine .inr ⟨runCheckCommand_of_aborted ht hp hc ha, fun hn => ?_⟩
    rw [hchecks.hasAborted_eq_false (plan_returnsNormally hn hp)] at ha
    cases ha
  | false =>
    have hwarnings := hchecks.areWarningsOfPlan (warnedName_distinct_of_plan ht hp)
    refine .inl ⟨.ofFiles (fileChecks checks), ?_⟩
    rw [runCheckCommand_of_checked ht hp hc ha]
    constructor
    case outcome => rfl
    case counted =>
      have hlength : checks.length = plan.files.length := by
        rw [← show checks.map Prod.fst = plan.files from hchecks.files, List.length_map]
      have hcounts := fileChecks_add_skipNotices checks
      rw [hlength] at hcounts
      rw [List.countP_append, countP_prepareNotices hp, countP_skipNotices, Nat.zero_add]
      exact hcounts
    case filesFixed => exact List.countP_le_length
    case grouped => exact hwarnings.grouped
    case ordered => exact fun file hf => (hwarnings.ofFile file hf).ordered
    case hinted => exact hintLine_mem_summaryLines _
    case hintShown => exact hintLine_mem_resultLines _ _ _
    case code =>
      intro color elapsed threads
      simp [CommandRun.output]
    case codeFixed =>
      intro hfixing color elapsed threads
      simp [CommandRun.output, hwarnings.countUnfixed_eq_zero (hfix.trans hfixing)]
    case printed => exact fun _ _ _ => rfl
    case message => exact resultLines_eq_noBarrelLines_iff
    case tree => exact resultLines_eq_warningTree_iff

end Command

/-- The project of a file to fix and of one that is skipped. -/
theorem sharedProject_consistent : sharedProject.IsTree ∧
    fixingConfiguration.plan sharedProject = .ok sharedPlan ∧
    ∃ result, RunAgrees true ['/', 'p'] sharedPlan.files
      (runCheckCommand sharedProject fixingConfiguration) result := by
  refine ⟨sharedProject_isTree, sharedProject_plan, ?_⟩
  obtain ⟨-, hresult | ⟨-, hn⟩⟩ :=
    checkCommand_consistent sharedProject_isTree sharedProject_plan
  · exact hresult
  · exact absurd fixingConfiguration_returnsNormally hn

end DirectImports
