import DirectImports.Proofs.LoadedOptions
import DirectImports.Proofs.PathOrder
import DirectImports.Proofs.ProjectFiles
import DirectImports.Proofs.SourceCheck

/-! What is known of a check before the first file is worked on. Whatever comes of the files, it is
decided by then whether the check fails. -/

namespace DirectImports

open FileSystem

structure CheckPlan where
  root : Text
  options : RuleOptions
  fix : Bool
  files : List Text

def Configuration.plan (configuration : Configuration) (system : FileSystem) :
    Except Failure CheckPlan := do
  let root ← configuration.findRoot system
  let options ← configuration.findOptions system root
  let files ← collectFiles system root configuration.entryGlob
  if files = [] then throw (.noSourceFiles root)
  else return ⟨root, options, configuration.fix, files⟩

/-- What the check of a file comes to when no other file has been worked on. -/
def CheckPlan.check (plan : CheckPlan) (system : FileSystem) (file : Text) :
    Except Failure FileCheck :=
  checkFile plan.options plan.root plan.fix system file

def CheckPlan.checks (plan : CheckPlan) (system : FileSystem) :
    List (Text × Except Failure FileCheck) :=
  plan.files.map fun file => (file, plan.check system file)

def checkOutcome (checks : List (Text × Except Failure FileCheck)) :
    Except Failure CheckResult :=
  if hasAborted checks then .error .aborted else .ok (.ofFiles (fileChecks checks))

variable {configuration : Configuration} {system : FileSystem} {plan : CheckPlan}

theorem plan_eq_ok (h : configuration.plan system = .ok plan) :
    configuration.findRoot system = .ok plan.root ∧
      configuration.findOptions system plan.root = .ok plan.options ∧
      collectFiles system plan.root configuration.entryGlob = .ok plan.files ∧
      plan.files ≠ [] ∧ plan.fix = configuration.fix := by
  obtain ⟨root, hr, h⟩ := except_bind_eq_ok.mp h
  obtain ⟨options, ho, h⟩ := except_bind_eq_ok.mp h
  obtain ⟨files, hf, h⟩ := except_bind_eq_ok.mp h
  split at h
  · cases h
  next hne =>
    obtain rfl := Except.ok.inj h
    exact ⟨hr, ho, hf, hne, rfl⟩

/-- A configuration with the root and the options that have been found for it. -/
def Configuration.withFound (configuration : Configuration) (root : Text)
    (options : RuleOptions) : Configuration :=
  { configuration with root := some root, options := some options }

theorem prepare_of_found {root : Text} {options : RuleOptions}
    (hr : configuration.findRoot system = .ok root)
    (ho : configuration.findOptions system root = .ok options) :
    configuration.prepare system = ⟨configuration.withFound root options,
      if configuration.options.isSome then [] else options.notices, none⟩ := by
  simp only [Configuration.prepare, hr, ho, bind, Except.bind]
  rfl

theorem prepare_of_unfound {failure : Failure} (h : (do
      let root ← configuration.findRoot system
      return (root, ← configuration.findOptions system root)) =
        (.error failure : Except Failure (Text × RuleOptions))) :
    configuration.prepare system = ⟨{ configuration with root := none }, [], some failure⟩ := by
  simp only [Configuration.prepare, h]

theorem runCheck_eq_of_found {root : Text} {options : RuleOptions}
    (hr : configuration.findRoot system = .ok root)
    (ho : configuration.findOptions system root = .ok options) :
    runCheck system configuration =
      let run := runCheckAt system root options configuration.entryGlob configuration.fix
      { run with notices := (configuration.prepare system).notices ++ run.notices } := by
  rw [runCheck, prepare_of_found hr ho]
  rfl

theorem runCheck_eq_of_unfound {failure : Failure} (h : (do
      let root ← configuration.findRoot system
      return (root, ← configuration.findOptions system root)) =
        (.error failure : Except Failure (Text × RuleOptions))) :
    runCheck system configuration = ⟨system, [], .error failure⟩ := by
  rw [runCheck, prepare_of_unfound h]
  rfl

theorem runCheck_of_found {root : Text} {options : RuleOptions}
    (hr : configuration.findRoot system = .ok root)
    (ho : configuration.findOptions system root = .ok options) :
    (runCheck system configuration).system =
        (runCheckAt system root options configuration.entryGlob configuration.fix).system ∧
      (runCheck system configuration).outcome =
        (runCheckAt system root options configuration.entryGlob configuration.fix).outcome := by
  rw [runCheck_eq_of_found hr ho]
  exact ⟨rfl, rfl⟩

theorem runCheck_of_unfound {failure : Failure} (h : (do
      let root ← configuration.findRoot system
      return (root, ← configuration.findOptions system root)) =
        (.error failure : Except Failure (Text × RuleOptions))) :
    (runCheck system configuration).system = system ∧
      (runCheck system configuration).outcome = .error failure := by
  rw [runCheck_eq_of_unfound h]
  exact ⟨rfl, rfl⟩

theorem runCheck_eq_of_plan (h : configuration.plan system = .ok plan) :
    runCheck system configuration =
      let (after, checks) := checkFiles plan.options plan.root plan.fix system plan.files
      ⟨after, (configuration.prepare system).notices ++
        (if hasAborted checks then [] else skipNotices checks), checkOutcome checks⟩ := by
  obtain ⟨hr, ho, hf, hne, hfix⟩ := plan_eq_ok h
  obtain ⟨file, files, hfiles⟩ := List.exists_cons_of_ne_nil hne
  rw [runCheck_eq_of_found hr ho, runCheckAt, hf, hfix, hfiles]
  simp only [checkOutcome]
  split
  · rfl
  · rfl

theorem runCheck_of_plan (h : configuration.plan system = .ok plan) :
    (runCheck system configuration).system =
        (checkFiles plan.options plan.root plan.fix system plan.files).1 ∧
      (runCheck system configuration).outcome =
        checkOutcome (checkFiles plan.options plan.root plan.fix system plan.files).2 := by
  rw [runCheck_eq_of_plan h]
  exact ⟨rfl, rfl⟩

/-- Without a plan nothing is worked on. -/
theorem runCheck_of_failure {failure : Failure} (h : configuration.plan system = .error failure) :
    (runCheck system configuration).system = system ∧
      (runCheck system configuration).outcome = .error failure := by
  unfold Configuration.plan at h
  cases hr : configuration.findRoot system with
  | error problem =>
    simp only [hr, bind, Except.bind] at h
    obtain rfl := Except.error.inj h
    refine runCheck_of_unfound ?_
    simp only [hr, bind, Except.bind]
  | ok root =>
    cases ho : configuration.findOptions system root with
    | error problem =>
      simp only [hr, ho, bind, Except.bind] at h
      obtain rfl := Except.error.inj h
      refine runCheck_of_unfound ?_
      simp only [hr, ho, bind, Except.bind]
    | ok options =>
      obtain ⟨hs, hout⟩ := runCheck_of_found hr ho
      rw [hs, hout, runCheckAt]
      cases hf : collectFiles system root configuration.entryGlob with
      | error problem =>
        simp only [hr, ho, hf, bind, Except.bind] at h
        obtain rfl := Except.error.inj h
        exact ⟨rfl, rfl⟩
      | ok files =>
        cases files with
        | nil =>
          simp only [hr, ho, hf, bind, Except.bind, if_true] at h
          obtain rfl := Except.error.inj h
          exact ⟨rfl, rfl⟩
        | cons file files =>
          simp only [hr, ho, hf, bind, Except.bind, reduceCtorEq, if_false] at h
          cases h

theorem plan_returnsNormally (hn : configuration.ReturnsNormally)
    (h : configuration.plan system = .ok plan) : plan.options.ReturnsNormally :=
  findOptions_returnsNormally hn (plan_eq_ok h).2.1

theorem plan_sorted (h : configuration.plan system = .ok plan) :
    plan.files.Pairwise fun a b => pathPrecedes a b = true :=
  collectFiles_sorted (plan_eq_ok h).2.2.1

theorem plan_files (ht : system.IsTree) (h : configuration.plan system = .ok plan) :
    ∃ base, plan.root = absolutePath base ∧ system.follow? base = some base ∧
      AreProjectFiles system base plan.files := by
  obtain ⟨hr, -, hf, hne, -⟩ := plan_eq_ok h
  exact ht.areProjectFiles hr hf hne

end DirectImports
