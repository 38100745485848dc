import DirectImports.Proofs.FileChecks
import DirectImports.Proofs.Schedule

/-! A check that fixes nothing and one that fixes what it finds. What the one counts as left to fix
the other has fixed. Both find the same, unless two of the collected paths are names of one file. -/

namespace DirectImports

open FileSystem

theorem plan_withFix (configuration : Configuration) (system : FileSystem) (fix : Bool) :
    ({ configuration with fix := fix } : Configuration).plan system =
      (configuration.plan system).map fun plan => { plan with fix := fix } := by
  show (configuration.findRoot system >>= _) = (configuration.findRoot system >>= _).map _
  cases configuration.findRoot system with
  | error failure => rfl
  | ok root =>
    show (configuration.findOptions system root >>= _) =
      (configuration.findOptions system root >>= _).map _
    cases configuration.findOptions system root with
    | error failure => rfl
    | ok options =>
      show (collectFiles system root configuration.entryGlob >>= _) =
        (collectFiles system root configuration.entryGlob >>= _).map _
      cases collectFiles system root configuration.entryGlob with
      | error failure => rfl
      | ok files =>
        cases files with
        | nil => rfl
        | cons file files => rfl

section Agreement

variable {options : RuleOptions} {system : FileSystem}

/-- A file that is not fixed and the same file when it is come to the same warnings. -/
theorem checkFile_agrees (hn : options.ReturnsNormally) (root file : Text) (system : FileSystem) :
    (∃ failure, ∀ fix, checkFile options root fix system file = .error failure) ∨
      ∃ dry real : FileCheck, checkFile options root false system file = .ok dry ∧
        checkFile options root true system file = .ok real ∧
        real.warnings = dry.warnings.map Warning.fixed := by
  rcases isSkipped_or_isChecked hn root file system with ⟨failure, hs⟩ | hc
  · exact .inl ⟨failure, hs.check⟩
  · obtain ⟨source, diagnostics, warnings, fixed, hc⟩ := hc
    exact .inr ⟨_, _, hc.dry, hc.real, rfl⟩

theorem checks_agree (hn : options.ReturnsNormally) (root : Text) (files : List Text) :
    let checks := fun fix => CheckResult.ofFiles
      (fileChecks (files.map fun file => (file, checkFile options root fix system file)))
    (checks true).filesAnalyzed = (checks false).filesAnalyzed ∧
      (checks true).warnings = (checks false).warnings.map Warning.fixed := by
  induction files with
  | nil => exact ⟨rfl, rfl⟩
  | cons file files ih =>
    obtain ⟨hcount, hwarnings⟩ := ih
    simp only [List.map_cons]
    rcases checkFile_agrees hn root file system with ⟨failure, hf⟩ | ⟨dry, real, hd, hr, hsame⟩
    · rw [hf true, hf false, fileChecks_error, fileChecks_error]
      exact ⟨hcount, hwarnings⟩
    · rw [hd, hr, fileChecks_ok, fileChecks_ok]
      refine ⟨congrArg (· + 1) hcount, ?_⟩
      simp only [CheckResult.ofFiles] at hwarnings ⊢
      rw [List.flatMap_cons, List.flatMap_cons, List.map_append, hsame, hwarnings]

end Agreement

theorem runCheck_outcome {configuration : Configuration} {system : FileSystem} {plan : CheckPlan}
    (hn : plan.options.ReturnsNormally) (hp : configuration.plan system = .ok plan) :
    ∃ checks, AreChecks plan checks ∧
      (runCheck system configuration).outcome = .ok (.ofFiles (fileChecks checks)) ∧
      (system.AreSeparate plan.files → checks = plan.checks system) := by
  have hchecks := areChecks_checkFiles plan system
  refine ⟨_, hchecks, ?_, checkFiles_of_areSeparate⟩
  rw [(runCheck_of_plan hp).2, hchecks.outcome_eq hn]

/-- A dry run and a run that fixes fail alike. Otherwise what the one warns of is left to fix and
what the other warns of has been fixed, in as many files as it names. If no two of the collected
paths are names of one file, they analyze as many files and warn of the same. -/
theorem dryRun_agrees {system : FileSystem} {configuration : Configuration} (ht : system.IsTree)
    (hn : configuration.ReturnsNormally) :
    (∃ failure,
      (runCheck system { configuration with fix := false }).outcome = .error failure ∧
      (runCheck system { configuration with fix := true }).outcome = .error failure) ∨
    ∃ dry real : CheckResult,
      (runCheck system { configuration with fix := false }).outcome = .ok dry ∧
      (runCheck system { configuration with fix := true }).outcome = .ok real ∧
      (∀ warning ∈ dry.warnings, warning.isFixed = false) ∧
      (∀ warning ∈ real.warnings, warning.isFixed = true) ∧
      countUnfixed dry.warnings = dry.warnings.length ∧ countUnfixed real.warnings = 0 ∧
      dry.filesFixed = 0 ∧
      real.filesFixed = (real.warnings.map Warning.file).toFinset.card ∧
      ((∀ plan, configuration.plan system = .ok plan → system.AreSeparate plan.files) →
        real.filesAnalyzed = dry.filesAnalyzed ∧
        real.warnings = dry.warnings.map fun warning => { warning with isFixed := true }) := by
  have hplan (fix : Bool) := plan_withFix configuration system fix
  cases hp : configuration.plan system with
  | error failure =>
    have hfailure (fix : Bool) : (runCheck system { configuration with fix := fix }).outcome =
        .error failure := by
      refine (runCheck_of_failure ?_).2
      rw [hplan, hp]
      rfl
    exact .inl ⟨failure, hfailure false, hfailure true⟩
  | ok plan =>
    have hfix (fix : Bool) : ({ configuration with fix := fix } : Configuration).plan system =
        .ok { plan with fix := fix } := by
      rw [hplan, hp]
      rfl
    have hplain := plan_returnsNormally hn hp
    have hnormal (fix : Bool) : ({ plan with fix := fix } : CheckPlan).options.ReturnsNormally :=
      hplain
    obtain ⟨dry, hdry, hd, hdryAlone⟩ := runCheck_outcome (hnormal false) (hfix false)
    obtain ⟨real, hreal, hr, hrealAlone⟩ := runCheck_outcome (hnormal true) (hfix true)
    have hnames : (real.map fun pair => warnedName plan.root pair.1).Nodup := by
      have hdistinct := warnedName_distinct_of_plan ht hp
      rwa [← show real.map Prod.fst = plan.files from hreal.files, List.map_map] at hdistinct
    refine .inr ⟨_, _, hd, hr, fun _ => hdry.isFixed_eq, fun _ => hreal.isFixed_eq, ?_, ?_,
      hdry.filesFixed_eq_zero (hnormal false) rfl, ?_, ?_⟩
    · refine List.countP_eq_length.mpr fun warning hw => ?_
      rw [hdry.isFixed_eq hw]
      rfl
    · refine List.countP_eq_zero.mpr fun warning hw => ?_
      rw [hreal.isFixed_eq hw]
      exact Bool.false_ne_true
    · refine filesFixed_eq_card hnames (fun pair hm => (hreal.areWarningsOf hm).named) ?_
      intro pair hm check hc
      simpa using hreal.isSome_iff (hnormal true) hm hc
    · intro hs
      rw [hdryAlone (hs plan rfl), hrealAlone (hs plan rfl)]
      exact checks_agree hplain plan.root plan.files

theorem sharedProject_areSeparate : sharedProject.AreSeparate sharedPlan.files := by
  have hfirst : sharedProject.locate "/p/a.ts".toList = .ok [['p'], "a.ts".toList] := rfl
  have hsecond : sharedProject.locate "/p/b.ts".toList = .ok [['p'], "b.ts".toList] := rfl
  refine .cons (List.forall_mem_singleton.mpr ?_) (List.pairwise_singleton _ _)
  rw [hfirst, hsecond]
  exact fun hsame => absurd (Except.ok.inj hsame) (by decide +kernel)

theorem sharedProject_dryRun : sharedProject.IsTree ∧ fixingConfiguration.ReturnsNormally ∧
    (∀ plan, fixingConfiguration.plan sharedProject = .ok plan →
      sharedProject.AreSeparate plan.files) ∧
    ∃ dry real : CheckResult,
      (runCheck sharedProject { fixingConfiguration with fix := false }).outcome = .ok dry ∧
      (runCheck sharedProject { fixingConfiguration with fix := true }).outcome = .ok real ∧
      dry.filesFixed = 0 ∧
      real.filesFixed = (real.warnings.map Warning.file).toFinset.card ∧
      real.warnings = dry.warnings.map fun warning => { warning with isFixed := true } := by
  have hseparate : ∀ plan, fixingConfiguration.plan sharedProject = .ok plan →
      sharedProject.AreSeparate plan.files := by
    intro plan hp
    obtain rfl := Except.ok.inj (sharedProject_plan.symm.trans hp)
    exact sharedProject_areSeparate
  refine ⟨sharedProject_isTree, fixingConfiguration_returnsNormally, hseparate, ?_⟩
  rcases dryRun_agrees sharedProject_isTree fixingConfiguration_returnsNormally with
    ⟨failure, -, hf⟩ | ⟨dry, real, hdry, hreal, -, -, -, -, hnone, hfixed, hagree⟩
  · obtain ⟨checks, -, hok, -⟩ :=
      runCheck_outcome underscoredOptions_returnsNormally sharedProject_plan
    cases hok.symm.trans hf
  · exact ⟨dry, real, hdry, hreal, hnone, hfixed, (hagree hseparate).2⟩

/-- A project with a file to fix that has two names. -/
def linkedProject : FileSystem where
  entries := [([['p']], .directory), ([['p'], "a.ts".toList], .file (.whole importingText)),
    ([['p'], "b.ts".toList], .link [['p'], "a.ts".toList])]
  currentDirectory := none

theorem linkedProject_isTree : linkedProject.IsTree := by
  have hfirst : FileSystem.IsTree ⟨[([['p']], .directory),
      ([['p'], "a.ts".toList], .file (.whole importingText))], none⟩ :=
    isTree_empty.write
      (show FileSystem.write ⟨[], none⟩ "/p/a.ts".toList (.whole importingText) = _ from rfl)
  have hname : IsFileName "b.ts".toList := by
    refine ⟨?_, ?_, ?_, ?_⟩ <;> decide +kernel
  have habove : FileSystem.entry? ⟨[([['p']], .directory),
      ([['p'], "a.ts".toList], .file (.whole importingText))], none⟩ [['p']] = some .directory :=
    rfl
  exact hfirst.put habove hname nofun (.link [['p'], "a.ts".toList])

theorem linkedProject_plan : fixingConfiguration.plan linkedProject = .ok sharedPlan :=
  fixingConfiguration_plan rfl (by decide +kernel)

/-- What a dry run finds by both names of a file, a run that fixes finds by the first only. -/
theorem linkedProject_dryRun : linkedProject.IsTree ∧ fixingConfiguration.ReturnsNormally ∧
    ∃ dry real : CheckResult,
      (runCheck linkedProject { fixingConfiguration with fix := false }).outcome = .ok dry ∧
      (runCheck linkedProject { fixingConfiguration with fix := true }).outcome = .ok real ∧
      dry.warnings.length = 2 ∧ real.warnings.length = 1 := by
  have hplan (fix : Bool) : ({ fixingConfiguration with fix := fix } : Configuration).plan
      linkedProject = .ok { sharedPlan with fix := fix } := by
    rw [plan_withFix, linkedProject_plan]
    rfl
  have houtcome (fix : Bool) :
      (runCheck linkedProject { fixingConfiguration with fix := fix }).outcome =
        .ok (.ofFiles (fileChecks
          (checkFiles underscoredOptions ['/', 'p'] fix linkedProject sharedPlan.files).2)) := by
    have hchecks := areChecks_checkFiles { sharedPlan with fix := fix } linkedProject
    rw [(runCheck_of_plan (hplan fix)).2, hchecks.outcome_eq underscoredOptions_returnsNormally]
    rfl
  refine ⟨linkedProject_isTree, fixingConfiguration_returnsNormally, _, _, houtcome false,
    houtcome true, ?_, ?_⟩
  · decide +kernel
  · decide +kernel

end DirectImports
