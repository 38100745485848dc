import DirectImports.CommandLine.Run
import DirectImports.Proofs.CheckPlan

/-! Preparing a configuration more than once. What has been found is found again, so that the
command, which prepares its configuration before the check does, comes to what the check does. -/

namespace DirectImports

open FileSystem

variable {configuration : Configuration} {system : FileSystem} {root : Text}
  {options : RuleOptions}

/-- A root that has been found is the canonical path of what it stands for, if of anything. -/
theorem canonicalPath?_found (ht : system.IsTree)
    (hr : configuration.findRoot system = .ok root) :
    (system.canonicalPath? root).getD root = root := by
  rcases ht.findRoot_cases hr with ⟨base, rfl, hb⟩ | ⟨error, hl⟩
  · rw [canonicalPath?, ht.locate_absolutePath hb]
    rfl
  · rw [canonicalPath?, hl]
    rfl

theorem findRoot_again (ht : system.IsTree) (hr : configuration.findRoot system = .ok root) :
    (configuration.withFound root options).findRoot system = .ok root := by
  show Except.ok ((system.canonicalPath? root).getD root) = .ok root
  rw [canonicalPath?_found ht hr]

theorem findOptions_again :
    (configuration.withFound root options).findOptions system root = .ok options :=
  rfl

theorem prepare_again (ht : system.IsTree) (hr : configuration.findRoot system = .ok root) :
    (configuration.withFound root options).prepare system =
      ⟨configuration.withFound root options, [], none⟩ :=
  prepare_of_found (findRoot_again ht hr) findOptions_again

/-- What is found when a configuration is prepared, or why nothing is. -/
theorem prepare_cases (configuration : Configuration) (system : FileSystem) :
    (∃ root options, configuration.findRoot system = .ok root ∧
      configuration.findOptions system root = .ok options) ∨
    ∃ failure, (do
      let root ← configuration.findRoot system
      return (root, ← configuration.findOptions system root)) =
        (.error failure : Except Failure (Text × RuleOptions)) := by
  cases hr : configuration.findRoot system with
  | error failure => exact .inr ⟨failure, rfl⟩
  | ok root =>
    cases ho : configuration.findOptions system root with
    | error failure =>
      refine .inr ⟨failure, ?_⟩
      simp only [bind, Except.bind, ho]
    | ok options => exact .inl ⟨root, options, rfl, ho⟩

/-- The command comes to what the check comes to. -/
theorem runCheckCommand_eq (ht : system.IsTree) : runCheckCommand system configuration =
    let run := runCheck system configuration
    ⟨run.system, run.notices,
      match run.outcome with
      | .ok result => .checked (configuration.prepare system).configuration.root result
      | .error failure => .failed failure⟩ := by
  rcases prepare_cases configuration system with ⟨root, options, hr, ho⟩ | ⟨failure, hf⟩
  · have hfirst := prepare_of_found hr ho
    have hrun := runCheck_eq_of_found hr ho
    have hsecond : runCheck system (configuration.withFound root options) =
        runCheckAt system root options configuration.entryGlob configuration.fix := by
      rw [runCheck_eq_of_found (findRoot_again ht hr) findOptions_again, prepare_again ht hr]
      rfl
    rw [hrun, runCheckCommand, hfirst]
    simp only [hsecond]
    cases (runCheckAt system root options configuration.entryGlob configuration.fix).outcome with
    | ok result => rfl
    | error failure => rfl
  · rw [runCheckCommand, prepare_of_unfound hf, runCheck_eq_of_unfound hf]

/-- Preparing a prepared configuration changes nothing and gives no notices. So the command, which
prepares twice, has the outcome of the check, gives its notices and leaves its file system. -/
theorem prepare_idempotent (ht : system.IsTree) :
    ((configuration.prepare system).failure = none →
      (∃ root options, configuration.findRoot system = .ok root ∧
        configuration.findOptions system root = .ok options ∧
        (configuration.prepare system).configuration =
          { configuration with root := some root, options := some options }) ∧
      (configuration.prepare system).configuration.prepare system =
        ⟨(configuration.prepare system).configuration, [], none⟩) ∧
    (runCheckCommand system configuration).system = (runCheck system configuration).system ∧
    (runCheckCommand system configuration).notices = (runCheck system configuration).notices ∧
    (runCheckCommand system configuration).outcome =
      match (runCheck system configuration).outcome with
      | .ok result => .checked (configuration.prepare system).configuration.root result
      | .error failure => .failed failure := by
  refine ⟨fun hnone => ?_, ?_⟩
  · rcases prepare_cases configuration system with ⟨root, options, hr, ho⟩ | ⟨failure, hf⟩
    · rw [prepare_of_found hr ho]
      exact ⟨⟨root, options, hr, ho, rfl⟩, prepare_again ht hr⟩
    · rw [prepare_of_unfound hf] at hnone
      cases hnone
  · rw [runCheckCommand_eq ht]
    exact ⟨rfl, rfl, rfl⟩

def noticedText : Text :=
  "\x7b\"patterns\": [\x7b\"barrel\": \"l\", \"transformPattern\": \"m\"\x7d]\x7d".toList

/-- A project whose options give a notice. -/
def noticedProject : FileSystem where
  entries := [([['p']], .directory), ([['p'], ['q']], .directory),
    ([['p'], defaultOptionsFile], .file (.whole noticedText))]
  currentDirectory := some [['p'], ['q']]

/-- The root is the directory above the current one. -/
def dottedConfiguration : Configuration :=
  { Configuration.empty with root := some ['.', '.'] }

theorem noticedProject_isTree : noticedProject.IsTree := by
  have hdirectories : IsTree ⟨[([['p']], .directory), ([['p'], ['q']], .directory)], none⟩ :=
    isTree_empty.createDirectories
      (show FileSystem.createDirectories ⟨[], none⟩ "/p/q".toList = _ from rfl)
  have hfile : IsTree ⟨noticedProject.entries, none⟩ :=
    hdirectories.write (show FileSystem.write _ "/p/.debarrelrc.json".toList
      (.whole noticedText) = _ from rfl)
  exact hfile.changeDirectory
    (show FileSystem.changeDirectory _ "/p/q".toList = _ from rfl)

theorem dottedConfiguration_prepared :
    (dottedConfiguration.prepare noticedProject).failure = none ∧
      (dottedConfiguration.prepare noticedProject).notices = [.missingPlaceholder ['l'] ['m']] ∧
      (dottedConfiguration.prepare noticedProject).configuration.root = some ['/', 'p'] := by
  decide +kernel

theorem noticedProject_idempotent : noticedProject.IsTree ∧
    (dottedConfiguration.prepare noticedProject).failure = none ∧
    (dottedConfiguration.prepare noticedProject).notices = [.missingPlaceholder ['l'] ['m']] ∧
    (dottedConfiguration.prepare noticedProject).configuration.prepare noticedProject =
      ⟨(dottedConfiguration.prepare noticedProject).configuration, [], none⟩ := by
  obtain ⟨hnone, hnotices, -⟩ := dottedConfiguration_prepared
  exact ⟨noticedProject_isTree, hnone, hnotices,
    ((prepare_idempotent noticedProject_isTree).1 hnone).2⟩

end DirectImports
