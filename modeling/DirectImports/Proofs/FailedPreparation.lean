import DirectImports.Proofs.Preparation

/-! Preparing a configuration after a failure. The root that was given is lost, and with it the
project: the next attempt looks for the nearest repository. -/

namespace DirectImports

open FileSystem

variable {configuration : Configuration} {system later : FileSystem}

/-- What a failure leaves of a configuration. -/
def Configuration.withoutRoot (configuration : Configuration) : Configuration :=
  { configuration with root := none }

theorem withoutRoot_eq_iff :
    configuration.withoutRoot = configuration ↔ configuration.root = none := by
  obtain ⟨root, optionsFile, entryGlob, fix, options⟩ := configuration
  rw [Configuration.withoutRoot, Configuration.mk.injEq]
  simp only [and_true]
  exact eq_comm

theorem configuration_of_failure {failure : Failure}
    (h : (configuration.prepare system).failure = some failure) :
    (configuration.prepare system).configuration = configuration.withoutRoot := by
  rcases prepare_cases configuration system with ⟨root, options, hr, ho⟩ | ⟨other, hf⟩
  · rw [prepare_of_found hr ho] at h
    cases h
  · rw [prepare_of_unfound hf]
    rfl

theorem findRoot_withoutRoot :
    configuration.withoutRoot.findRoot system = system.repositoryRoot :=
  rfl

theorem findOptions_withoutRoot (root : Text) :
    configuration.withoutRoot.findOptions system root = configuration.findOptions system root :=
  rfl

/-- A configuration finds the same root without the one that it was given if that one is the nearest
repository. -/
theorem findRoot_withoutRoot_iff :
    configuration.withoutRoot.findRoot system = configuration.findRoot system ↔
      ∀ root ∈ configuration.root,
        system.repositoryRoot = .ok ((system.canonicalPath? root).getD root) := by
  rw [findRoot_withoutRoot, Configuration.findRoot]
  cases configuration.root with
  | none => exact iff_of_true rfl nofun
  | some root =>
    constructor
    · rintro h _ hroot
      obtain rfl := Option.some.inj hroot
      exact h
    · exact fun h => h root rfl

/-- The roots of two configurations that differ in the given root alone agree if it is found
alike. -/
theorem prepare_withoutRoot_iff (h : (configuration.prepare later).failure = none) :
    (configuration.withoutRoot.prepare later).configuration.root =
        (configuration.prepare later).configuration.root ↔
      configuration.withoutRoot.findRoot later = configuration.findRoot later := by
  rcases prepare_cases configuration later with ⟨root, options, hr, ho⟩ | ⟨failure, hf⟩
  · rw [prepare_of_found hr ho]
    constructor
    · intro hroot
      rcases prepare_cases configuration.withoutRoot later with ⟨root', _, hr', ho'⟩ | ⟨_, hf'⟩
      · rw [prepare_of_found hr' ho'] at hroot
        rw [hr, hr', Option.some.inj hroot]
      · rw [prepare_of_unfound hf'] at hroot
        cases hroot
    · intro hsame
      have hr' : configuration.withoutRoot.findRoot later = .ok root := hsame.trans hr
      rw [prepare_of_found hr' ((findOptions_withoutRoot root).trans ho)]
      rfl
  · rw [prepare_of_unfound hf] at h
    cases h

/-- A failure takes the root out of a configuration and leaves the rest of it. The configuration is
as it was if it had no root, and once the cause is repaired it finds the same root as at first if
the one that it had is the nearest repository. -/
theorem prepare_failed {failure : Failure}
    (h : (configuration.prepare system).failure = some failure) :
    let left := (configuration.prepare system).configuration
    left = { configuration with root := none } ∧
    (left = configuration ↔ configuration.root = none) ∧
    ∀ later, (configuration.prepare later).failure = none →
      ((left.prepare later).configuration.root = (configuration.prepare later).configuration.root ↔
        ∀ root ∈ configuration.root,
          later.repositoryRoot = .ok ((later.canonicalPath? root).getD root)) := by
  intro left
  have hleft : left = configuration.withoutRoot := configuration_of_failure h
  rw [hleft]
  refine ⟨rfl, withoutRoot_eq_iff, fun later hlater => ?_⟩
  rw [prepare_withoutRoot_iff hlater, findRoot_withoutRoot_iff]

/-- A project without options beside a repository that has some. The current directory is in the
repository. -/
def unreadyProject : FileSystem where
  entries := [([['p']], .directory), ([['q']], .directory), ([['q'], ".git".toList], .directory),
    ([['q'], defaultOptionsFile], .file (.whole noticedText))]
  currentDirectory := some [['q']]

/-- The project has been given options. -/
def readyProject : FileSystem :=
  unreadyProject.put [['p'], defaultOptionsFile] (.file (.whole noticedText))

def rootedConfiguration : Configuration :=
  { Configuration.empty with root := some ['/', 'p'] }

theorem unreadyProject_fails :
    (rootedConfiguration.prepare unreadyProject).failure = some (.noOptionsFile ['/', 'p']) := by
  decide +kernel

theorem readyProject_prepared :
    (rootedConfiguration.prepare readyProject).failure = none ∧
      (rootedConfiguration.prepare readyProject).configuration.root = some ['/', 'p'] := by
  decide +kernel

theorem unreadyProject_failed :
    (rootedConfiguration.prepare unreadyProject).failure = some (.noOptionsFile ['/', 'p']) ∧
    (rootedConfiguration.prepare readyProject).failure = none ∧
    ((rootedConfiguration.prepare unreadyProject).configuration = rootedConfiguration ↔
      rootedConfiguration.root = none) ∧
    (((rootedConfiguration.prepare unreadyProject).configuration.prepare
        readyProject).configuration.root =
          (rootedConfiguration.prepare readyProject).configuration.root ↔
      ∀ root ∈ rootedConfiguration.root, readyProject.repositoryRoot =
        .ok ((readyProject.canonicalPath? root).getD root)) := by
  obtain ⟨-, hsame, hroot⟩ := prepare_failed unreadyProject_fails
  obtain ⟨hready, -⟩ := readyProject_prepared
  exact ⟨unreadyProject_fails, hready, hsame, hroot readyProject hready⟩

/-- The configuration is not as it was, and once the project has options, the next attempt is at the
root of the repository. -/
theorem unreadyProject_forgotten :
    (rootedConfiguration.prepare unreadyProject).failure = some (.noOptionsFile ['/', 'p']) ∧
    (rootedConfiguration.prepare unreadyProject).configuration ≠ rootedConfiguration ∧
    (rootedConfiguration.prepare readyProject).configuration.root = some ['/', 'p'] ∧
    ((rootedConfiguration.prepare unreadyProject).configuration.prepare
      readyProject).configuration.root = some ['/', 'q'] := by
  have hafter : (rootedConfiguration.withoutRoot.prepare readyProject).configuration.root =
      some ['/', 'q'] := by
    decide +kernel
  rw [configuration_of_failure unreadyProject_fails, ne_eq, withoutRoot_eq_iff]
  exact ⟨unreadyProject_fails, Option.some_ne_none _, readyProject_prepared.2, hafter⟩

end DirectImports
