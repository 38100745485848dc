import Mathlib
import DirectImports.Proofs.Overwriting
import DirectImports.Proofs.WarningOrder

/-! Checks of the files of a plan. What one check writes the next may read, where two paths are
names of one file. So what is said here of the checks holds in whatever state each of them found the
file system. -/

namespace DirectImports

open FileSystem

/-- One check of every file of a plan, each in some state of the file system. -/
structure AreChecks (plan : CheckPlan) (checks : List (Text × Except Failure FileCheck)) :
    Prop where
  files : checks.map Prod.fst = plan.files
  check : ∀ pair ∈ checks, ∃ between, plan.check between pair.1 = pair.2

/-- The warnings that the check of a file comes to. -/
def warningsIn (check : Except Failure FileCheck) : List Warning :=
  (check.toOption.map FileCheck.warnings).getD []

theorem warningsIn_error (failure : Failure) : warningsIn (.error failure) = [] :=
  rfl

theorem warningsIn_ok (check : FileCheck) : warningsIn (.ok check) = check.warnings :=
  rfl

theorem fileChecks_error (file : Text) (failure : Failure)
    (checks : List (Text × Except Failure FileCheck)) :
    fileChecks ((file, .error failure) :: checks) = fileChecks checks :=
  rfl

theorem fileChecks_ok (file : Text) (check : FileCheck)
    (checks : List (Text × Except Failure FileCheck)) :
    fileChecks ((file, .ok check) :: checks) = check :: fileChecks checks :=
  rfl

theorem warnings_ofFiles (checks : List (Text × Except Failure FileCheck)) :
    (CheckResult.ofFiles (fileChecks checks)).warnings =
      checks.flatMap fun pair => warningsIn pair.2 := by
  induction checks with
  | nil => rfl
  | cons pair checks ih =>
    rw [List.flatMap_cons, ← ih]
    obtain ⟨file, check⟩ := pair
    cases check with
    | error failure => rfl
    | ok found => rfl

variable {plan : CheckPlan} {system : FileSystem} {file : Text}

theorem areChecks_checkFiles (plan : CheckPlan) (system : FileSystem) :
    AreChecks plan (checkFiles plan.options plan.root plan.fix system plan.files).2 :=
  ⟨checkFiles_files plan.files, fun _ => exists_checkFile_of_mem⟩

theorem check_ne_aborted (hn : plan.options.ReturnsNormally) (file : Text) :
    plan.check system file ≠ .error .aborted := by
  rcases isSkipped_or_isChecked hn plan.root file system with ⟨failure, hs⟩ | hc
  · rw [CheckPlan.check, hs.check]
    exact fun hfailure => hs.notAborted (Except.error.inj hfailure)
  · obtain ⟨source, diagnostics, warnings, fixed, hc⟩ := hc
    rw [CheckPlan.check]
    cases plan.fix with
    | false =>
      rw [hc.dry]
      nofun
    | true =>
      rw [hc.real]
      nofun

/-- A file is fixed if it is to be and there is a warning. -/
theorem fixed_isSome_iff (hn : plan.options.ReturnsNormally) {check : FileCheck}
    (h : plan.check system file = .ok check) :
    check.fixed.isSome ↔ plan.fix = true ∧ check.warnings ≠ [] := by
  rcases isSkipped_or_isChecked hn plan.root file system with ⟨failure, hs⟩ | hc
  · rw [CheckPlan.check, hs.check] at h
    cases h
  · obtain ⟨source, diagnostics, warnings, fixed, hc⟩ := hc
    rw [CheckPlan.check] at h
    cases hfix : plan.fix with
    | false =>
      rw [hfix, hc.dry] at h
      obtain rfl := Except.ok.inj h
      simp
    | true =>
      rw [hfix, hc.real] at h
      obtain rfl := Except.ok.inj h
      simp only [← hc.empty]
      by_cases hw : warnings = []
      · simp [hw]
      · simp [hw]

namespace AreChecks

variable {checks : List (Text × Except Failure FileCheck)}

theorem hasAborted_eq_false (h : AreChecks plan checks) (hn : plan.options.ReturnsNormally) :
    hasAborted checks = false := by
  rw [hasAborted, List.any_eq_false]
  rintro ⟨file, check⟩ hm
  obtain ⟨between, hc⟩ := h.check _ hm
  have hna : plan.check between file ≠ .error .aborted := check_ne_aborted hn file
  rw [show plan.check between file = check from hc] at hna
  simp

theorem outcome_eq (h : AreChecks plan checks) (hn : plan.options.ReturnsNormally) :
    checkOutcome checks = .ok (.ofFiles (fileChecks checks)) := by
  rw [checkOutcome, h.hasAborted_eq_false hn, if_neg Bool.false_ne_true]

theorem areWarningsOf (h : AreChecks plan checks) {pair : Text × Except Failure FileCheck}
    (hm : pair ∈ checks) :
    AreWarningsOf (warnedName plan.root pair.1) plan.fix (warningsIn pair.2) := by
  obtain ⟨between, hc⟩ := h.check pair hm
  unfold warningsIn
  cases hf : pair.2 with
  | error failure => exact ⟨nofun, nofun, .nil⟩
  | ok check => exact checkFile_warnings (hc.trans hf)

/-- All warnings are marked as the run goes. -/
theorem isFixed_eq (h : AreChecks plan checks) {warning : Warning}
    (hw : warning ∈ (CheckResult.ofFiles (fileChecks checks)).warnings) :
    warning.isFixed = plan.fix := by
  rw [warnings_ofFiles] at hw
  obtain ⟨pair, hm, hw⟩ := List.mem_flatMap.mp hw
  exact (h.areWarningsOf hm).marked warning hw

theorem isSome_iff (h : AreChecks plan checks) (hn : plan.options.ReturnsNormally)
    {pair : Text × Except Failure FileCheck} (hm : pair ∈ checks) {check : FileCheck}
    (hc : pair.2 = .ok check) : check.fixed.isSome ↔ plan.fix = true ∧ check.warnings ≠ [] := by
  obtain ⟨between, hb⟩ := h.check pair hm
  exact fixed_isSome_iff hn (hb.trans hc)

theorem filesFixed_eq_zero (h : AreChecks plan checks) (hn : plan.options.ReturnsNormally)
    (hf : plan.fix = false) : (CheckResult.ofFiles (fileChecks checks)).filesFixed = 0 := by
  refine List.countP_eq_zero.mpr fun check hm hfixed => ?_
  obtain ⟨⟨file, found⟩, hpair, hfound⟩ := List.mem_filterMap.mp hm
  cases found with
  | error failure => cases hfound
  | ok other =>
    obtain rfl := Option.some.inj hfound
    have hfix := ((h.isSome_iff hn hpair rfl).mp hfixed).1
    rw [hf] at hfix
    cases hfix

end AreChecks

/-- Where the files have names of their own, as many are fixed as are named in warnings, if each
with a warning is. -/
theorem filesFixed_eq_card {checks : List (Text × Except Failure FileCheck)} {name : Text → Text}
    (hd : (checks.map fun pair => name pair.1).Nodup)
    (hnamed : ∀ pair ∈ checks, ∀ warning ∈ warningsIn pair.2, warning.file = name pair.1)
    (hfixed : ∀ pair ∈ checks, ∀ check, pair.2 = .ok check →
      (check.fixed.isSome ↔ check.warnings ≠ [])) :
    (CheckResult.ofFiles (fileChecks checks)).filesFixed =
      ((CheckResult.ofFiles (fileChecks checks)).warnings.map Warning.file).toFinset.card := by
  rw [warnings_ofFiles]
  induction checks with
  | nil => rfl
  | cons pair checks ih =>
    obtain ⟨hname, hd⟩ := List.nodup_cons.mp hd
    obtain ⟨hfirst, hlater⟩ := List.forall_mem_cons.mp hnamed
    obtain ⟨hfix, hfixes⟩ := List.forall_mem_cons.mp hfixed
    have hcount := ih hd hlater hfixes
    have hother : name pair.1 ∉
        ((checks.flatMap fun pair => warningsIn pair.2).map Warning.file).toFinset := by
      simp only [List.mem_toFinset, List.mem_map, List.mem_flatMap, not_exists, not_and]
      rintro warning ⟨later, hm, hw⟩ hsame
      exact hname (List.mem_map.mpr ⟨later, hm, (hlater later hm warning hw).symm.trans hsame⟩)
    rw [List.flatMap_cons, List.map_append, List.toFinset_append]
    obtain ⟨file, check⟩ := pair
    cases check with
    | error failure =>
      rw [fileChecks_error, warningsIn_error]
      exact hcount
    | ok found =>
      simp only [warningsIn_ok] at hfirst ⊢
      simp only [CheckResult.ofFiles] at hcount ⊢
      rw [fileChecks_ok, List.countP_cons, hcount]
      by_cases hne : found.warnings = []
      · have hunfixed : ¬found.fixed.isSome := fun hsome => (hfix found rfl).mp hsome hne
        simp [hne, hunfixed]
      · have hnames : (found.warnings.map Warning.file).toFinset = {name file} := by
          obtain ⟨first, hm⟩ := List.exists_mem_of_ne_nil found.warnings hne
          refine Finset.eq_singleton_iff_unique_mem.mpr ⟨?_, ?_⟩
          · exact List.mem_toFinset.mpr (List.mem_map.mpr ⟨first, hm, hfirst first hm⟩)
          · intro other ho
            obtain ⟨warning, hw, rfl⟩ := List.mem_map.mp (List.mem_toFinset.mp ho)
            exact hfirst warning hw
        rw [hnames, if_pos ((hfix found rfl).mpr hne), Finset.singleton_union,
          Finset.card_insert_of_notMem hother]

/-- The files of a project have names of their own in warnings. -/
theorem warnedName_distinct (ht : system.IsTree) {base : Location} {files : List Text}
    (hb : system.follow? base = some base) (h : AreProjectFiles system base files) :
    (files.map (warnedName (absolutePath base))).Nodup := by
  have hname (file : Text) (hf : file ∈ files) : ∃ names, AreFileNames names ∧
      file = absolutePath (base ++ names) ∧
      warnedName (absolutePath base) file = relativePath names := by
    obtain ⟨names, rfl, hfile⟩ := h.file file hf
    have hnames : AreFileNames (base ++ names) := ht.areFileNames hfile.isSome
    refine ⟨names, hnames.of_append.2, rfl, ?_⟩
    rw [warnedName, relativeTo?_absolutePath (ht.areFileNames (follow?_spec hb).1)
      hnames.of_append.2, Option.getD_some]
  refine h.distinct.map_on fun a ha b hb hsame => ?_
  obtain ⟨names, hnames, rfl, hrelative⟩ := hname a ha
  obtain ⟨names', hnames', rfl, hrelative'⟩ := hname b hb
  rw [hrelative, hrelative'] at hsame
  rw [relativePath_injective hnames hnames' hsame]

theorem warnedName_distinct_of_plan {configuration : Configuration} (ht : system.IsTree)
    (hp : configuration.plan system = .ok plan) :
    (plan.files.map (warnedName plan.root)).Nodup := by
  obtain ⟨base, hroot, hb, hfiles⟩ := plan_files ht hp
  rw [hroot]
  exact warnedName_distinct ht hb hfiles

end DirectImports
