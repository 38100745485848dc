import DirectImports.Proofs.CheckPlan

/-! Writing over a file. Every name of the file reads the new text and all else is as it was, so
paths lead where they led before. Files are checked on their own as long as no two of them are one
file. -/

namespace DirectImports

namespace FileSystem

variable {system after : FileSystem}

/-- A file system and one in which files may hold something else. -/
structure SameShape (system after : FileSystem) : Prop where
  current : after.currentDirectory = system.currentDirectory
  entries : ∀ location, after.entry? location = system.entry? location ∨
    ∃ old new, system.entry? location = some (.file old) ∧
      after.entry? location = some (.file new)

namespace SameShape

theorem refl (system : FileSystem) : SameShape system system :=
  ⟨rfl, fun _ => .inl rfl⟩

theorem linkTarget_eq (h : SameShape system after) (location : Location) :
    after.linkTarget location = system.linkTarget location := by
  rcases h.entries location with hsame | ⟨old, new, hold, hnew⟩
  · simp [linkTarget, hsame]
  · simp [linkTarget, hold, hnew]

theorem follow?_eq (h : SameShape system after) (location : Location) :
    after.follow? location = system.follow? location := by
  rw [follow?, follow?, h.linkTarget_eq]
  rcases h.entries (system.linkTarget location) with hsame | ⟨old, new, hold, hnew⟩
  · rw [hsame]
  · rw [hold, hnew]

theorem step_eq (h : SameShape system after) (location : Location) (segment : Text) :
    after.step location segment = system.step location segment := by
  rw [step, step, h.follow?_eq]
  rcases h.entries location with hsame | ⟨old, new, hold, hnew⟩
  · rw [hsame]
  · rw [hold, hnew]

/-- Paths lead where they led before. -/
theorem locate_eq (h : SameShape system after) (path : Text) :
    after.locate path = system.locate path := by
  have hstep : after.step = system.step := by
    funext location segment
    exact h.step_eq location segment
  simp only [locate, origin, h.current, hstep]

end SameShape

/-- A path is read where it leads to a file that holds a text. -/
theorem readText_eq_ok_iff {path text : Text} : system.readText path = .ok text ↔
    ∃ location, system.locate path = .ok location ∧
      system.entry? location = some (.file (.whole text)) := by
  constructor
  · intro h
    obtain ⟨entry, hlookup, htext⟩ := except_bind_eq_ok.mp h
    obtain ⟨location, hl, hlookup⟩ := except_bind_eq_ok.mp hlookup
    refine ⟨location, hl, ?_⟩
    split at hlookup
    next found he =>
      obtain rfl := Except.ok.inj hlookup
      rw [he]
      match found, htext with
      | .file (.whole _), htext => rw [Except.ok.inj htext]
    next => cases hlookup
  · rintro ⟨location, hl, he⟩
    simp [readText, lookup, hl, he, bind, Except.bind, pure, Except.pure, Entry.text]

theorem entry?_overwrite {path : Text} {location : Location} {content : Content}
    (hl : system.locate path = .ok location) (he : system.entry? location = some (.file content))
    (text : Text) (other : Location) : entry? (system.overwrite path text) other =
      if other = location then some (.file (.whole text)) else system.entry? other := by
  have hne : location ≠ [] := by
    rintro rfl
    cases he
  rw [overwrite, hl]
  exact entry?_put system hne _ other

theorem overwrite_currentDirectory (system : FileSystem) (path text : Text) :
    (system.overwrite path text).currentDirectory = system.currentDirectory := by
  unfold overwrite
  split
  · rfl
  · rfl

theorem sameShape_overwrite {path source : Text} (h : system.readText path = .ok source)
    (text : Text) : SameShape system (system.overwrite path text) := by
  obtain ⟨location, hl, he⟩ := readText_eq_ok_iff.mp h
  refine ⟨overwrite_currentDirectory system path text, fun other => ?_⟩
  rw [entry?_overwrite hl he]
  by_cases hother : other = location
  · subst hother
    exact .inr ⟨_, _, he, if_pos rfl⟩
  · exact .inl (if_neg hother)

/-- A path that does not lead to the file that is written reads what it read before. -/
theorem readText_overwrite_of_ne {path other source : Text}
    (h : system.readText path = .ok source) (hne : system.locate other ≠ system.locate path)
    (text : Text) : (system.overwrite path text).readText other = system.readText other := by
  obtain ⟨location, hl, he⟩ := readText_eq_ok_iff.mp h
  rw [readText, readText, lookup, lookup, (sameShape_overwrite h text).locate_eq]
  cases ho : system.locate other with
  | error error => rfl
  | ok found =>
    have hfound : found ≠ location := by
      rintro rfl
      exact hne (ho.trans hl.symm)
    simp only [bind, Except.bind, entry?_overwrite hl he, if_neg hfound]

/-- No two of the paths are names of one file. -/
def AreSeparate (system : FileSystem) (files : List Text) : Prop :=
  files.Pairwise fun a b => system.locate a ≠ system.locate b

theorem SameShape.areSeparate {files : List Text} (h : SameShape system after)
    (hs : system.AreSeparate files) : after.AreSeparate files := by
  simpa only [AreSeparate, h.locate_eq] using hs

end FileSystem

open FileSystem

section Checks

variable {options : RuleOptions} {root file other : Text} {fix : Bool} {system : FileSystem}

/-- A check leaves its file as it is or writes over it once it has been read. -/
theorem checkStep_cases (options : RuleOptions) (root file : Text) (fix : Bool)
    (system : FileSystem) : (checkStep options root fix system file).1 = system ∨
      ∃ source text, system.readText file = .ok source ∧
        (checkStep options root fix system file).1 = system.overwrite file text := by
  rw [checkStep]
  cases hr : system.readText file with
  | error error =>
    rw [checkFile_of_unreadable fix hr]
    exact .inl rfl
  | ok source =>
    cases checkFile options root fix system file with
    | error failure => exact .inl rfl
    | ok check =>
      obtain ⟨warnings, fixed⟩ := check
      cases fixed with
      | none => exact .inl rfl
      | some text => exact .inr ⟨source, text, rfl, rfl⟩

theorem sameShape_checkStep :
    SameShape system (checkStep options root fix system file).1 := by
  rcases checkStep_cases options root file fix system with hsame | ⟨source, text, hr, hwritten⟩
  · rw [hsame]
    exact .refl system
  · rw [hwritten]
    exact sameShape_overwrite hr text

theorem checkFile_after_checkStep (hne : system.locate other ≠ system.locate file) :
    checkFile options root fix (checkStep options root fix system file).1 other =
      checkFile options root fix system other := by
  rcases checkStep_cases options root file fix system with hsame | ⟨source, text, hr, hwritten⟩
  · rw [hsame]
  · rw [hwritten, checkFile, checkFile, readText_overwrite_of_ne hr hne]

theorem checkStep_check :
    (checkStep options root fix system file).2 = checkFile options root fix system file := by
  rw [checkStep]
  split
  · rfl
  · rfl

theorem exists_checkFile_of_mem {files : List Text}
    {pair : Text × Except Failure FileCheck}
    (h : pair ∈ (checkFiles options root fix system files).2) :
    ∃ between, checkFile options root fix between pair.1 = pair.2 := by
  induction files generalizing system with
  | nil => cases h
  | cons file files ih =>
    rcases List.mem_cons.mp h with rfl | h
    · exact ⟨system, checkStep_check.symm⟩
    · exact ih h

theorem checkFiles_files (files : List Text) :
    (checkFiles options root fix system files).2.map Prod.fst = files := by
  induction files generalizing system with
  | nil => rfl
  | cons file files ih => exact congrArg (List.cons file) ih

/-- Checking separate files one after the other comes to what each comes to on its own. -/
theorem checkFiles_of_areSeparate {files : List Text} (h : system.AreSeparate files) :
    (checkFiles options root fix system files).2 =
      files.map fun file => (file, checkFile options root fix system file) := by
  induction files generalizing system with
  | nil => rfl
  | cons file files ih =>
    obtain ⟨hfirst, hlater⟩ := List.pairwise_cons.mp h
    have hrest := ih (sameShape_checkStep.areSeparate hlater :
      (checkStep options root fix system file).1.AreSeparate files)
    rw [checkFiles, List.map_cons]
    refine List.cons_eq_cons.mpr ⟨congrArg (Prod.mk file) checkStep_check, hrest.trans ?_⟩
    refine List.map_congr_left fun other ho => ?_
    rw [checkFile_after_checkStep (hfirst other ho).symm]

end Checks

end DirectImports
