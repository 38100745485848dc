import Mathlib
import DirectImports.Proofs.CheckPlan
import DirectImports.Proofs.Overwriting

/-! The work on the files of a project in any order. A file is read, linted and, if there is
something to fix, written; other files may be worked on in between. Without links the work on one
file touches no other, so what is known of a file stays as it was before the check. -/

namespace DirectImports

open FileSystem

/-- How far the work on a file has come. -/
inductive Stage where
  | waiting
  | read (source : Text)
  | linted (warnings : List Warning) (fixed : Text)
  | finished (check : Except Failure FileCheck)

namespace Stage

def check? : Stage → Option (Except Failure FileCheck)
  | finished check => some check
  | _ => none

/-- What the file is by now, if it has been written. -/
def written? : Stage → Option Entry
  | finished (.ok check) => check.fixed.map fun text => .file (.whole text)
  | _ => none

def stepsLeft : Stage → Nat
  | waiting => 3
  | read _ => 2
  | linted _ _ => 1
  | finished _ => 0

def afterLint : Except Failure FileCheck → Stage
  | .ok ⟨warnings, some fixed⟩ => linted warnings fixed
  | check => finished check

/-- One step of the work on a file; nothing once it is finished. -/
def advance? (plan : CheckPlan) (system : FileSystem) (file : Text) :
    Stage → Option (FileSystem × Stage)
  | waiting =>
    match system.readText file with
    | .ok source => some (system, read source)
    | .error error => some (system, finished (.error (.unreadable file error)))
  | read source =>
    some (system, afterLint (checkSource plan.options plan.root file plan.fix source))
  | linted warnings fixed =>
    some (system.overwrite file fixed, finished (.ok ⟨warnings, some fixed⟩))
  | finished _ => none

/-- What is known at a stage of the file as it was before the check. -/
def Fits (plan : CheckPlan) (system : FileSystem) (file : Text) : Stage → Prop
  | waiting => True
  | read source => system.readText file = .ok source
  | linted warnings fixed => plan.check system file = .ok ⟨warnings, some fixed⟩
  | finished check => plan.check system file = check

theorem afterLint_written? (check : Except Failure FileCheck) :
    (afterLint check).written? = none := by
  match check with
  | .error _ => rfl
  | .ok ⟨_, none⟩ => rfl
  | .ok ⟨_, some _⟩ => rfl

theorem afterLint_fits {plan : CheckPlan} {system : FileSystem} {file : Text}
    {check : Except Failure FileCheck} (h : plan.check system file = check) :
    (afterLint check).Fits plan system file := by
  match check with
  | .error _ => exact h
  | .ok ⟨_, none⟩ => exact h
  | .ok ⟨_, some _⟩ => exact h

theorem afterLint_stepsLeft (check : Except Failure FileCheck) :
    (afterLint check).stepsLeft ≤ 1 := by
  match check with
  | .error _ => exact Nat.zero_le 1
  | .ok ⟨_, none⟩ => exact Nat.zero_le 1
  | .ok ⟨_, some _⟩ => exact Nat.le_refl 1

theorem advance?_stepsLeft {plan : CheckPlan} {system : FileSystem} {file : Text} {stage : Stage}
    {next : FileSystem × Stage} (h : stage.advance? plan system file = some next) :
    next.2.stepsLeft < stage.stepsLeft := by
  cases stage with
  | waiting =>
    simp only [advance?] at h
    split at h
    · obtain rfl := Option.some.inj h
      exact Nat.lt_succ_self 2
    · obtain rfl := Option.some.inj h
      exact Nat.succ_pos 2
  | read source =>
    obtain rfl := Option.some.inj h
    exact Nat.lt_succ_of_le (afterLint_stepsLeft _)
  | linted warnings fixed =>
    obtain rfl := Option.some.inj h
    exact Nat.one_pos
  | finished check => cases h

theorem advance?_isSome {plan : CheckPlan} {system : FileSystem} {file : Text} {stage : Stage}
    (h : stage.check? = none) : ∃ next, stage.advance? plan system file = some next := by
  cases stage with
  | waiting =>
    simp only [advance?]
    split
    · exact ⟨_, rfl⟩
    · exact ⟨_, rfl⟩
  | read source => exact ⟨_, rfl⟩
  | linted warnings fixed => exact ⟨_, rfl⟩
  | finished check => cases h

end Stage

/-- A check under way. -/
structure Work where
  system : FileSystem
  stage : Text → Stage

namespace Work

def start (system : FileSystem) : Work :=
  ⟨system, fun _ => .waiting⟩

def set (work : Work) (file : Text) (next : FileSystem × Stage) : Work :=
  ⟨next.1, Function.update work.stage file next.2⟩

/-- The work on any one file goes a step further. -/
inductive Step (plan : CheckPlan) (work : Work) : Work → Prop
  | advance {file : Text} {next : FileSystem × Stage} (hf : file ∈ plan.files)
      (h : (work.stage file).advance? plan work.system file = some next) :
      Step plan work (work.set file next)

abbrev Reaches (plan : CheckPlan) : Work → Work → Prop :=
  Relation.ReflTransGen (Step plan)

def IsFinished (work : Work) (plan : CheckPlan) : Prop :=
  ∀ file ∈ plan.files, (work.stage file).check?.isSome

/-- What the checks of files have come to, as far as they are finished. -/
def checks (work : Work) (files : List Text) : List (Text × Except Failure FileCheck) :=
  files.filterMap fun file => (work.stage file).check?.map fun check => (file, check)

def stepsLeft (work : Work) (plan : CheckPlan) : Nat :=
  (plan.files.map fun file => (work.stage file).stepsLeft).sum

theorem checks_cons {work : Work} {file : Text} {check : Except Failure FileCheck}
    (h : work.stage file = .finished check) (files : List Text) :
    work.checks (file :: files) = (file, check) :: work.checks files := by
  simp [checks, h, Stage.check?]

theorem set_set (work : Work) (file : Text) (first second : FileSystem × Stage) :
    (work.set file first).set file second = work.set file second := by
  simp [set]

theorem set_stage (work : Work) (file : Text) (next : FileSystem × Stage) :
    (work.set file next).stage file = next.2 :=
  Function.update_self ..

theorem set_stage_of_ne (work : Work) {file other : Text} (next : FileSystem × Stage)
    (h : other ≠ file) : (work.set file next).stage other = work.stage other :=
  Function.update_of_ne h ..

theorem Step.again {plan : CheckPlan} {work : Work} {file : Text} {first next : FileSystem × Stage}
    (hf : file ∈ plan.files) (h : first.2.advance? plan first.1 file = some next) :
    Step plan (work.set file first) (work.set file next) := by
  have hstep : Step plan (work.set file first) ((work.set file first).set file next) := by
    refine .advance hf ?_
    rw [set_stage]
    exact h
  rwa [set_set] at hstep

theorem Step.stepsLeft_lt {plan : CheckPlan} {work next : Work} (h : Step plan work next) :
    next.stepsLeft plan < work.stepsLeft plan := by
  cases h with
  | @advance file next hf h =>
    have hless := Stage.advance?_stepsLeft h
    refine List.sum_lt_sum _ _ (fun other _ => ?_) ⟨file, hf, ?_⟩
    · by_cases ho : other = file
      · subst ho
        rw [set_stage]
        exact hless.le
      · rw [set_stage_of_ne _ _ ho]
    · rw [set_stage]
      exact hless

/-- Work that is not finished can go on, and it cannot go on for ever. -/
theorem exists_finished (plan : CheckPlan) (work : Work) :
    ∃ finished, Reaches plan work finished ∧ finished.IsFinished plan := by
  induction hn : work.stepsLeft plan using Nat.strong_induction_on generalizing work with
  | h n ih =>
    by_cases hf : work.IsFinished plan
    · exact ⟨work, .refl, hf⟩
    · obtain ⟨file, hfile, hopen⟩ : ∃ file ∈ plan.files, (work.stage file).check? = none := by
        simpa [IsFinished] using hf
      obtain ⟨next, ha⟩ : ∃ next, (work.stage file).advance? plan work.system file = some next :=
        Stage.advance?_isSome hopen
      have hstep := Step.advance hfile ha
      obtain ⟨finished, hr, hdone⟩ := ih _ (hn ▸ hstep.stepsLeft_lt) _ rfl
      exact ⟨finished, .head hstep hr, hdone⟩

/-- A check under way has written the files that it is done with and nothing else, and what it knows
of the others is as before. -/
structure Follows (work : Work) (plan : CheckPlan) (system : FileSystem) : Prop where
  tree : work.system.IsTree
  current : work.system.currentDirectory = system.currentDirectory
  idle : ∀ file, file ∉ plan.files → work.stage file = .waiting
  fits : ∀ file ∈ plan.files, (work.stage file).Fits plan system file
  entries : ∀ location, AreFileNames location → work.system.entry? location =
    (work.stage (absolutePath location)).written?.or (system.entry? location)

namespace Follows

variable {plan : CheckPlan} {system : FileSystem} {work : Work} {base : Location}

theorem start (plan : CheckPlan) (ht : system.IsTree) : (Work.start system).Follows plan system :=
  ⟨ht, rfl, fun _ _ => rfl, fun _ _ => trivial, fun _ _ => rfl⟩

theorem idle_set (h : work.Follows plan system) {file other : Text} (hf : file ∈ plan.files)
    (next : FileSystem × Stage) (ho : other ∉ plan.files) :
    (work.set file next).stage other = .waiting := by
  have hne : other ≠ file := fun hother => ho (hother ▸ hf)
  rw [set_stage_of_ne _ _ hne, h.idle other ho]

theorem fits_set (h : work.Follows plan system) {file other : Text} {next : FileSystem × Stage}
    (hfits : next.2.Fits plan system file) (ho : other ∈ plan.files) :
    ((work.set file next).stage other).Fits plan system other := by
  by_cases hother : other = file
  · subst hother
    rwa [set_stage]
  · rw [set_stage_of_ne _ _ hother]
    exact h.fits other ho

theorem keep (h : work.Follows plan system) {file : Text} (hf : file ∈ plan.files) {stage : Stage}
    (hfits : stage.Fits plan system file)
    (hwritten : stage.written? = (work.stage file).written?) :
    (work.set file (work.system, stage)).Follows plan system where
  tree := h.tree
  current := h.current
  idle _ := h.idle_set hf _
  fits _ := h.fits_set hfits
  entries location hl := by
    have hentry := h.entries location hl
    by_cases hlocation : absolutePath location = file
    · subst hlocation
      rwa [set_stage, hwritten]
    · rwa [set_stage_of_ne _ _ hlocation]

theorem write (h : work.Follows plan system) {location : Location} {content : Content}
    (hl : AreFileNames location) (hf : absolutePath location ∈ plan.files)
    (he : work.system.entry? location = some (.file content)) {warnings : List Warning}
    {fixed : Text}
    (hc : plan.check system (absolutePath location) = .ok ⟨warnings, some fixed⟩) :
    (work.set (absolutePath location) (work.system.overwrite (absolutePath location) fixed,
      .finished (.ok ⟨warnings, some fixed⟩))).Follows plan system where
  tree := h.tree.overwrite (h.tree.locate_absolutePath (follow?_of_file he)) he fixed
  current := (overwrite_currentDirectory _ _ _).trans h.current
  idle _ := h.idle_set hf _
  fits _ := h.fits_set hc
  entries other ho := by
    show entry? (work.system.overwrite (absolutePath location) fixed) other = _
    rw [entry?_overwrite (h.tree.locate_absolutePath (follow?_of_file he)) he]
    by_cases hother : other = location
    · subst hother
      rw [if_pos rfl, set_stage]
      rfl
    · have hpath : absolutePath other ≠ absolutePath location := fun hp =>
        hother (absolutePath_injective ho hl hp)
      rw [if_neg hother, set_stage_of_ne _ _ hpath, h.entries other ho]

theorem step (h : work.Follows plan system) (ht : system.IsTree) (hu : system.IsUnlinked)
    (hp : AreProjectFiles system base plan.files) {next : Work} (hs : Step plan work next) :
    next.Follows plan system := by
  cases hs with
  | @advance file next hf ha =>
    obtain ⟨names, rfl, hfile⟩ := hp.file file hf
    obtain ⟨content, he⟩ := hu.file hfile
    have hl : AreFileNames (base ++ names) := ht.areFileNames hfile.isSome
    have hfits := h.fits _ hf
    have hentry := h.entries _ hl
    cases hstage : work.stage (absolutePath (base ++ names)) with
    | waiting =>
      rw [hstage] at ha hentry
      have hread : work.system.readText (absolutePath (base ++ names)) =
          system.readText (absolutePath (base ++ names)) := by
        rw [ht.readText_absolutePath (follow?_of_file he) he,
          h.tree.readText_absolutePath (follow?_of_file (hentry.trans he)) (hentry.trans he)]
      simp only [Stage.advance?, hread] at ha
      split at ha
      next source hsource =>
        obtain rfl := Option.some.inj ha
        exact h.keep hf hsource (by rw [hstage]; rfl)
      next error herror =>
        obtain rfl := Option.some.inj ha
        exact h.keep hf (checkFile_of_unreadable plan.fix herror) (by rw [hstage]; rfl)
    | read source =>
      rw [hstage] at ha hfits
      obtain rfl := Option.some.inj ha
      have hcheck : plan.check system (absolutePath (base ++ names)) = _ :=
        checkFile_of_read plan.fix hfits
      refine h.keep hf (Stage.afterLint_fits hcheck) ?_
      rw [hstage, Stage.afterLint_written?]
      rfl
    | linted warnings fixed =>
      rw [hstage] at ha hfits hentry
      obtain rfl := Option.some.inj ha
      exact h.write hl hf (hentry.trans he) hfits
    | finished check =>
      rw [hstage] at ha
      cases ha

theorem reaches (h : work.Follows plan system) (ht : system.IsTree) (hu : system.IsUnlinked)
    (hp : AreProjectFiles system base plan.files) {next : Work} (hr : Reaches plan work next) :
    next.Follows plan system := by
  induction hr with
  | refl => exact h
  | tail _ hs ih => exact ih.step ht hu hp hs

theorem stage_eq (h : work.Follows plan system) (hd : work.IsFinished plan) {file : Text}
    (hf : file ∈ plan.files) : work.stage file = .finished (plan.check system file) := by
  have hfits := h.fits file hf
  have hdone := hd file hf
  cases hstage : work.stage file with
  | finished check =>
    rw [hstage] at hfits
    rw [show plan.check system file = check from hfits]
  | _ =>
    rw [hstage] at hdone
    cases hdone

theorem checks_eq (h : work.Follows plan system) (hd : work.IsFinished plan) :
    work.checks plan.files = plan.checks system := by
  rw [checks, CheckPlan.checks, ← List.filterMap_eq_map']
  refine List.filterMap_congr fun file hf => ?_
  rw [h.stage_eq hd hf]
  rfl

/-- There is only one file system that a check can leave. -/
theorem entry?_eq (h : work.Follows plan system) (hd : work.IsFinished plan) {other : Work}
    (h' : other.Follows plan system) (hd' : other.IsFinished plan) (location : Location) :
    work.system.entry? location = other.system.entry? location := by
  by_cases hl : AreFileNames location
  · rw [h.entries location hl, h'.entries location hl]
    by_cases hf : absolutePath location ∈ plan.files
    · rw [h.stage_eq hd hf, h'.stage_eq hd' hf]
    · rw [h.idle _ hf, h'.idle _ hf]
  · rw [h.tree.entry?_eq_none hl, h'.tree.entry?_eq_none hl]

end Follows

/-! One order of work is that of the files one after the other. -/

theorem reaches_checkStep {plan : CheckPlan} {work : Work} {file : Text}
    (hf : file ∈ plan.files) (hw : work.stage file = .waiting) :
    Reaches plan work (work.set file
      ((checkStep plan.options plan.root plan.fix work.system file).1,
        .finished (checkStep plan.options plan.root plan.fix work.system file).2)) := by
  cases hr : work.system.readText file with
  | error error =>
    have hcheck : checkFile plan.options plan.root plan.fix work.system file =
        .error (.unreadable file error) := checkFile_of_unreadable plan.fix hr
    simp only [checkStep, hcheck]
    refine .single (.advance hf ?_)
    rw [hw, Stage.advance?, hr]
  | ok source =>
    have hread : Step plan work (work.set file (work.system, .read source)) := by
      refine .advance hf ?_
      rw [hw, Stage.advance?, hr]
    have hcheck : checkFile plan.options plan.root plan.fix work.system file =
        checkSource plan.options plan.root file plan.fix source := checkFile_of_read plan.fix hr
    have hlint : Step plan (work.set file (work.system, .read source)) (work.set file
        (work.system, .afterLint (checkSource plan.options plan.root file plan.fix source))) :=
      .again hf rfl
    rw [checkStep, hcheck]
    cases hc : checkSource plan.options plan.root file plan.fix source with
    | error failure =>
      rw [hc] at hlint
      exact .tail (.single hread) hlint
    | ok check =>
      obtain ⟨warnings, fixed⟩ := check
      rw [hc] at hlint
      cases fixed with
      | none => exact .tail (.single hread) hlint
      | some fixed => exact .tail (.tail (.single hread) hlint) (.again hf rfl)

theorem reaches_checkFiles {plan : CheckPlan} {files : List Text} (hfiles : files ⊆ plan.files)
    (hd : files.Nodup) {work : Work} (hw : ∀ file ∈ files, work.stage file = .waiting) :
    ∃ after, Reaches plan work after ∧
      after.system = (checkFiles plan.options plan.root plan.fix work.system files).1 ∧
      after.checks files = (checkFiles plan.options plan.root plan.fix work.system files).2 ∧
      (∀ file ∈ files, (after.stage file).check?.isSome) ∧
      ∀ file, file ∉ files → after.stage file = work.stage file := by
  induction files generalizing work with
  | nil => exact ⟨work, .refl, rfl, rfl, nofun, fun _ _ => rfl⟩
  | cons file files ih =>
    obtain ⟨hfile, hlater⟩ := List.cons_subset.mp hfiles
    obtain ⟨hnot, hd⟩ := List.nodup_cons.mp hd
    obtain ⟨hwaiting, hwaits⟩ := List.forall_mem_cons.mp hw
    have hfirst := reaches_checkStep hfile hwaiting
    generalize hc : checkStep plan.options plan.root plan.fix work.system file = result at hfirst
    have hwaits' : ∀ other ∈ files,
        (work.set file (result.1, .finished result.2)).stage other = .waiting := by
      intro other ho
      have hne : other ≠ file := fun hother => hnot (hother ▸ ho)
      rw [set_stage_of_ne _ _ hne, hwaits other ho]
    obtain ⟨after, hr, hs, hchecks, hdone, hkept⟩ := ih hlater hd hwaits'
    have hstage : after.stage file = .finished result.2 := by
      rw [hkept file hnot, set_stage]
    refine ⟨after, hfirst.trans hr, ?_, ?_, ?_, ?_⟩
    · rw [checkFiles, hc, hs]
      rfl
    · rw [checkFiles, hc, checks_cons hstage]
      exact congrArg (List.cons (file, result.2)) hchecks
    · refine List.forall_mem_cons.mpr ⟨?_, hdone⟩
      rw [hstage]
      rfl
    · intro other ho
      have hne : other ≠ file := fun hother => ho (by simp [hother])
      rw [hkept other fun hother => ho (.tail _ hother), set_stage_of_ne _ _ hne]

end Work

end DirectImports
