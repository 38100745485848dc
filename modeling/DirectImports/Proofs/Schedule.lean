import DirectImports.Proofs.Work

/-! A check in any order of work. However the files are worked on, the check comes to what it comes
to when they are worked on one after the other, and it changes only what it is to fix. -/

namespace DirectImports

open FileSystem

/-- A check of a project whose files are worked on in any order, with what it leaves and its
outcome. -/
inductive ScheduledCheck (configuration : Configuration) (system : FileSystem) :
    FileSystem → Except Failure CheckResult → Prop
  | failed {failure : Failure} (h : configuration.plan system = .error failure) :
      ScheduledCheck configuration system system (.error failure)
  | finished {plan : CheckPlan} {work : Work} (hp : configuration.plan system = .ok plan)
      (hr : Work.Reaches plan (.start system) work) (hd : work.IsFinished plan) :
      ScheduledCheck configuration system work.system (checkOutcome (work.checks plan.files))

/-- What a check may change: only files that it collects, lints and finds something in, and these
only by fixing them. -/
structure EditsOnly (plan : CheckPlan) (system after : FileSystem) : Prop where
  uncollected : ∀ location, absolutePath location ∉ plan.files →
    after.entry? location = system.entry? location
  unreadable : ∀ location error, system.readText (absolutePath location) = .error error →
    after.entry? location = system.entry? location
  unparsable : ∀ location source failure, system.readText (absolutePath location) = .ok source →
    importDeclarations (absolutePath location) source = .error failure →
      after.entry? location = system.entry? location
  clean : ∀ location source, system.readText (absolutePath location) = .ok source →
    lintSource plan.options (absolutePath location) source = .ok [] →
      after.entry? location = system.entry? location
  unfixed : plan.fix = false → ∀ location, after.entry? location = system.entry? location
  fixed : plan.fix = true → ∀ file ∈ plan.files, ∀ source diagnostics,
    system.readText file = .ok source → lintSource plan.options file source = .ok diagnostics →
      diagnostics ≠ [] → ∃ text, fixSource plan.options file source = .ok text ∧
        after.readText file = .ok text

section Outcome

variable {configuration : Configuration} {system : FileSystem} {plan : CheckPlan} {base : Location}

/-- The text that a file is given is its old one fixed. -/
theorem check_writes (hn : plan.options.ReturnsNormally) {file : Text} {check : FileCheck}
    {text : Text} (h : plan.check system file = .ok check) (hw : check.fixed = some text) :
    plan.fix = true ∧ ∃ source diagnostics, system.readText file = .ok source ∧
      lintSource plan.options file source = .ok diagnostics ∧ diagnostics ≠ [] ∧
      fixSource plan.options file source = .ok text := by
  rcases isSkipped_or_isChecked hn plan.root file system with ⟨failure, hs⟩ | hc
  · rw [CheckPlan.check, hs.check] at h
    cases h
  · obtain ⟨source, diagnostics, warnings, fixed, hc⟩ := hc
    rw [CheckPlan.check] at h
    cases hfix : plan.fix with
    | false =>
      rw [hfix, hc.dry] at h
      obtain rfl := Except.ok.inj h
      cases hw
    | true =>
      rw [hfix, hc.real] at h
      obtain rfl := Except.ok.inj h
      by_cases hd : diagnostics = []
      · rw [if_pos hd] at hw
        cases hw
      · rw [if_neg hd] at hw
        obtain rfl := Option.some.inj hw
        exact ⟨rfl, source, diagnostics, hc.read, hc.lint, hd, hc.fix⟩

theorem editsOnly (ht : system.IsTree) (hn : plan.options.ReturnsNormally)
    (hp : AreProjectFiles system base plan.files) {work : Work}
    (h : work.Follows plan system) (hd : work.IsFinished plan) :
    EditsOnly plan system work.system := by
  have hkept (location : Location) (hw : ∀ warnings text, absolutePath location ∈ plan.files →
      plan.check system (absolutePath location) ≠ .ok ⟨warnings, some text⟩) :
      work.system.entry? location = system.entry? location := by
    by_cases hl : AreFileNames location
    · rw [h.entries location hl]
      by_cases hf : absolutePath location ∈ plan.files
      · have hunwritten : (work.stage (absolutePath location)).written? = none := by
          rw [h.stage_eq hd hf]
          match hc : plan.check system (absolutePath location) with
          | .error _ => rfl
          | .ok ⟨_, none⟩ => rfl
          | .ok ⟨warnings, some text⟩ => exact absurd hc (hw warnings text hf)
        rw [hunwritten, Option.none_or]
      · rw [h.idle _ hf]
        rfl
    · rw [h.tree.entry?_eq_none hl, ht.entry?_eq_none hl]
  constructor
  case uncollected =>
    exact fun location hnot => hkept location fun _ _ hf => absurd hf hnot
  case unreadable =>
    intro location error hr
    refine hkept location fun warnings text _ hc => ?_
    obtain ⟨-, source, _, hread, -⟩ := check_writes hn hc rfl
    rw [hr] at hread
    cases hread
  case unparsable =>
    intro location source failure hr hi
    refine hkept location fun warnings text _ hc => ?_
    obtain ⟨-, other, _, hread, hlint, -⟩ := check_writes hn hc rfl
    obtain rfl := Except.ok.inj (hr.symm.trans hread)
    rw [lintSource_of_unparsable hi] at hlint
    cases hlint
  case clean =>
    intro location source hr hl
    refine hkept location fun warnings text _ hc => ?_
    obtain ⟨-, other, diagnostics, hread, hlint, hne, -⟩ := check_writes hn hc rfl
    obtain rfl := Except.ok.inj (hr.symm.trans hread)
    exact hne (Except.ok.inj (hl.symm.trans hlint)).symm
  case unfixed =>
    intro hfix location
    refine hkept location fun warnings text _ hc => ?_
    have hreal := (check_writes hn hc rfl).1
    rw [hfix] at hreal
    cases hreal
  case fixed =>
    intro hfix file hf source diagnostics hr hl hne
    rcases isSkipped_or_isChecked hn plan.root file system with ⟨failure, hs⟩ | hc
    · rw [hs.unlinted source hr] at hl
      cases hl
    · obtain ⟨_, _, warnings, fixed, hc⟩ := hc
      obtain rfl := Except.ok.inj (hr.symm.trans hc.read)
      obtain rfl := Except.ok.inj (hl.symm.trans hc.lint)
      obtain ⟨names, rfl, hfile⟩ := hp.file file hf
      have hcheck := hc.real
      rw [if_neg hne, ← hfix] at hcheck
      have hstage := h.stage_eq hd hf
      rw [CheckPlan.check, hcheck] at hstage
      have hentry := h.entries (base ++ names) (ht.areFileNames hfile.isSome)
      rw [hstage] at hentry
      exact ⟨fixed, hc.fix, h.tree.readText_absolutePath (follow?_of_file hentry) hentry⟩

/-- The order in which the files are sorted is one that they may be worked on in. -/
theorem exists_checkFiles (ht : system.IsTree) (hu : system.IsUnlinked)
    (hp : configuration.plan system = .ok plan) :
    ∃ work, Work.Reaches plan (.start system) work ∧ work.Follows plan system ∧
      work.IsFinished plan ∧
      work.system = (checkFiles plan.options plan.root plan.fix system plan.files).1 ∧
      work.checks plan.files =
        (checkFiles plan.options plan.root plan.fix system plan.files).2 := by
  obtain ⟨base, -, -, hfiles⟩ := plan_files ht hp
  have hwaiting : ∀ file ∈ plan.files, (Work.start system).stage file = .waiting :=
    fun _ _ => rfl
  obtain ⟨work, hr, hsystem, hchecks, hdone, -⟩ :=
    Work.reaches_checkFiles (List.Subset.refl plan.files) hfiles.distinct hwaiting
  exact ⟨work, hr, (Work.Follows.start plan ht).reaches ht hu hfiles hr, hdone, hsystem, hchecks⟩

theorem exists_sequential (ht : system.IsTree) (hu : system.IsUnlinked)
    (hp : configuration.plan system = .ok plan) :
    ∃ work, Work.Reaches plan (.start system) work ∧ work.Follows plan system ∧
      work.IsFinished plan ∧ work.system = (runCheck system configuration).system ∧
      checkOutcome (work.checks plan.files) = (runCheck system configuration).outcome := by
  obtain ⟨work, hr, hfollows, hdone, hsystem, hchecks⟩ := exists_checkFiles ht hu hp
  obtain ⟨hs, ho⟩ := runCheck_of_plan hp
  exact ⟨work, hr, hfollows, hdone, by rw [hsystem, hs], by rw [hchecks, ho]⟩

/-- Whatever the order in which files are worked on, the check of a project without links has one
outcome and leaves one file system: those of working on the files one after the other, as they are
sorted. Only what is found in a collected file is changed, and only where it is to be fixed. -/
theorem scheduledCheck_unique (ht : system.IsTree) (hu : system.IsUnlinked)
    (hn : configuration.ReturnsNormally) :
    ScheduledCheck configuration system (runCheck system configuration).system
        (runCheck system configuration).outcome ∧
      (∀ plan, configuration.plan system = .ok plan →
        plan.files.Pairwise (fun a b => pathPrecedes a b = true) ∧
        ∀ work, Work.Reaches plan (.start system) work →
          ∃ finished, Work.Reaches plan work finished ∧ finished.IsFinished plan) ∧
      ∀ after outcome, ScheduledCheck configuration system after outcome →
        outcome = (runCheck system configuration).outcome ∧
        after.currentDirectory = system.currentDirectory ∧
        (∀ location, after.entry? location =
          (runCheck system configuration).system.entry? location) ∧
        match configuration.plan system with
        | .ok plan => EditsOnly plan system after
        | .error _ => after = system := by
  cases hp : configuration.plan system with
  | error failure =>
    obtain ⟨hs, ho⟩ := runCheck_of_failure hp
    rw [hs, ho]
    refine ⟨.failed hp, nofun, fun after outcome hc => ?_⟩
    cases hc with
    | failed hf =>
      obtain rfl := Except.error.inj (hp.symm.trans hf)
      exact ⟨rfl, rfl, fun _ => rfl, rfl⟩
    | finished hf _ _ =>
      rw [hp] at hf
      cases hf
  | ok plan =>
    obtain ⟨base, -, -, hfiles⟩ := plan_files ht hp
    obtain ⟨last, hlast, hfollows, hdone, hs, ho⟩ := exists_sequential ht hu hp
    refine ⟨?_, ?_, fun after outcome hc => ?_⟩
    · rw [← hs, ← ho]
      exact .finished hp hlast hdone
    · intro plan' hplan
      obtain rfl := Except.ok.inj hplan
      exact ⟨plan_sorted hp, fun work _ => Work.exists_finished plan work⟩
    · cases hc with
      | failed hf =>
        rw [hp] at hf
        cases hf
      | @finished plan' work hf hr hd =>
        obtain rfl := Except.ok.inj (hp.symm.trans hf)
        have hwork := (Work.Follows.start plan ht).reaches ht hu hfiles hr
        refine ⟨?_, hwork.current, fun location => ?_,
          editsOnly ht (plan_returnsNormally hn hp) hfiles hwork hd⟩
        · rw [← ho, hwork.checks_eq hd, hfollows.checks_eq hdone]
        · rw [← hs]
          exact hwork.entry?_eq hd hfollows hdone location

end Outcome

def importingText : Text :=
  "import {A} from 'l'".toList

/-- A project with a file to fix and one that is no text. -/
def sharedProject : FileSystem where
  entries := [([['p']], .directory), ([['p'], "a.ts".toList], .file (.whole importingText)),
    ([['p'], "b.ts".toList], .file (.torn []))]
  currentDirectory := none

def sharedVisits : List Visit :=
  [⟨['/', 'p'], false⟩, ⟨"/p/a.ts".toList, true⟩, ⟨"/p/b.ts".toList, true⟩]

def fixingConfiguration : Configuration where
  root := some ['/', 'p']
  optionsFile := none
  entryGlob := none
  fix := true
  options := some underscoredOptions

def sharedPlan : CheckPlan where
  root := ['/', 'p']
  options := underscoredOptions
  fix := true
  files := ["/p/a.ts".toList, "/p/b.ts".toList]

theorem sharedProject_isTree : sharedProject.IsTree := by
  have hfirst : FileSystem.IsTree ⟨[([['p']], .directory),
      ([['p'], "a.ts".toList], .file (.whole importingText))], none⟩ :=
    isTree_empty.write
      (show FileSystem.write ⟨[], none⟩ "/p/a.ts".toList (.whole importingText) = _ from rfl)
  exact hfirst.write (show FileSystem.write _ "/p/b.ts".toList (.torn []) = _ from rfl)

theorem sharedProject_isUnlinked : sharedProject.IsUnlinked := by
  have hentries : ∀ entry ∈ sharedProject.entries, ∀ target, entry.2 ≠ .link target := by
    simp [sharedProject]
  intro location target h
  by_cases hl : location = []
  · subst hl
    cases h
  · exact hentries _ (mem_of_found hl h) target rfl

theorem fixingConfiguration_returnsNormally : fixingConfiguration.ReturnsNormally := by
  intro options ho
  obtain rfl := Option.some.inj ho
  exact underscoredOptions_returnsNormally

theorem fixingConfiguration_plan {system : FileSystem}
    (hroot : fixingConfiguration.findRoot system = .ok ['/', 'p'])
    (hwalk : system.walk ['/', 'p'] = sharedVisits.map .ok) :
    fixingConfiguration.plan system = .ok sharedPlan := by
  have hcollected : (sharedVisits.filter (isCollected ['/', 'p'] none)).map Visit.path =
      sharedPlan.files := by
    decide +kernel
  have hsorted : sharedPlan.files.mergeSort pathPrecedes = sharedPlan.files :=
    List.mergeSort_of_pairwise (by decide +kernel)
  have hfiles : collectFiles system ['/', 'p'] fixingConfiguration.entryGlob =
      .ok sharedPlan.files := by
    have hcollect : collectFrom ['/', 'p'] none (sharedVisits.map .ok) =
        .ok (((sharedVisits.filter (isCollected ['/', 'p'] none)).map Visit.path).mergeSort
          pathPrecedes) := rfl
    rw [collectFiles, hwalk, show fixingConfiguration.entryGlob = none from rfl, hcollect,
      hcollected, hsorted]
  have hoptions : fixingConfiguration.findOptions system ['/', 'p'] = .ok underscoredOptions :=
    rfl
  simp only [Configuration.plan, bind, Except.bind, hroot, hoptions, hfiles]
  rfl

theorem sharedProject_plan : fixingConfiguration.plan sharedProject = .ok sharedPlan :=
  fixingConfiguration_plan rfl (by decide +kernel)

theorem importingText_linted : ∃ diagnostics,
    lintSource underscoredOptions "/p/a.ts".toList importingText = .ok diagnostics ∧
      diagnostics ≠ [] := by
  have hd : importDeclarations "/p/a.ts".toList importingText =
      .ok [⟨⟨0, 19⟩, some ['l'], [.named ['A'] ['A'] false], false⟩] := by
    decide +kernel
  exact ⟨_, lintSource_eq_ok_iff.mpr ⟨_, hd, rfl⟩, nofun⟩

theorem sharedProject_unique : sharedProject.IsTree ∧ sharedProject.IsUnlinked ∧
    fixingConfiguration.ReturnsNormally ∧
    ∀ after outcome, ScheduledCheck fixingConfiguration sharedProject after outcome →
      outcome = (runCheck sharedProject fixingConfiguration).outcome ∧
      (∃ text, fixSource underscoredOptions "/p/a.ts".toList importingText = .ok text ∧
        after.readText "/p/a.ts".toList = .ok text) ∧
      after.entry? [['p'], "b.ts".toList] = some (.file (.torn [])) := by
  refine ⟨sharedProject_isTree, sharedProject_isUnlinked, fixingConfiguration_returnsNormally,
    fun after outcome hc => ?_⟩
  obtain ⟨-, -, hunique⟩ := scheduledCheck_unique sharedProject_isTree sharedProject_isUnlinked
    fixingConfiguration_returnsNormally
  obtain ⟨houtcome, -, -, hedits⟩ := hunique after outcome hc
  rw [sharedProject_plan] at hedits
  obtain ⟨diagnostics, hl, hne⟩ := importingText_linted
  refine ⟨houtcome, hedits.fixed rfl _ (.head _) importingText diagnostics rfl hl hne, ?_⟩
  rw [hedits.unreadable [['p'], "b.ts".toList] .invalidText rfl]
  rfl

end DirectImports
