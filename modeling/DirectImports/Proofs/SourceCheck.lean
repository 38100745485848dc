import DirectImports.Check
import DirectImports.Proofs.Fixing

/-! The check of a source text. It finds the same whether the text is to be fixed or not, and it is
given up only where the text cannot be read. -/

namespace DirectImports

theorem Spliced.split {offset : Nat} {text fixed : Text} {fixes : List Fix}
    (h : Spliced offset text fixes fixed) : ∀ fix ∈ fixes, ∃ before inside after,
      text = before ++ (inside ++ after) ∧ fix.span =
        ⟨offset + byteLength before, offset + byteLength before + byteLength inside⟩ := by
  induction h with
  | rest => exact nofun
  | @fix offset gap inside text fixed fix later hs _ ih =>
    refine List.forall_mem_cons.mpr ⟨⟨gap, inside, text, rfl, hs⟩, fun other ho => ?_⟩
    obtain ⟨before, covered, after, rfl, hspan⟩ := ih other ho
    refine ⟨gap ++ (inside ++ before), covered, after, by simp, ?_⟩
    rw [hspan, hs, byteLength_append, byteLength_append, Nat.add_assoc, Nat.add_assoc]

def Warning.fixed (warning : Warning) : Warning :=
  { warning with isFixed := true }

/-- The name of a file in its warnings. -/
def warnedName (root file : Text) : Text :=
  (relativeTo? root file).getD file

theorem warning?_of_isFixed {diagnostic : Diagnostic} {name source before inside after : Text}
    (hf : diagnostic.IsFixed) (ht : source = before ++ (inside ++ after)) (hs : diagnostic.span =
      ⟨byteLength before, byteLength before + byteLength inside⟩) :
    ∃ warning, diagnostic.warning? name source false = some warning ∧
      diagnostic.warning? name source true = some warning.fixed ∧
      warning.file = name ∧ warning.isFixed = false := by
  obtain ⟨replacement, hfix⟩ := hf
  have hposition : positionAt source diagnostic.span.start =
      some (before.foldl Position.advance ⟨1, 1⟩) := by
    rw [hs, ht, positionAt, cutAt_append, Option.map_some]
  have hslice : diagnostic.span.slice source = some inside := by
    rw [hs, ht, Span.slice, Span.split_append, Option.map_some]
  have hwarning (fix : Bool) : diagnostic.warning? name source fix =
      some ⟨name, before.foldl Position.advance ⟨1, 1⟩, inside, diagnostic.message,
        some replacement, fix⟩ := by
    simp only [Diagnostic.warning?, hposition, hslice, hfix, Option.isSome_some, Bool.and_true]
    rfl
  exact ⟨_, hwarning false, hwarning true, rfl, rfl⟩

theorem warnings_of_diagnostics {diagnostics : List Diagnostic} {name source : Text}
    (h : ∀ diagnostic ∈ diagnostics, ∃ warning,
      diagnostic.warning? name source false = some warning ∧
        diagnostic.warning? name source true = some warning.fixed ∧
        warning.file = name ∧ warning.isFixed = false) :
    ∃ warnings : List Warning, warnings.length = diagnostics.length ∧
      diagnostics.mapM (fun diagnostic => diagnostic.warning? name source false) =
        some warnings ∧
      diagnostics.mapM (fun diagnostic => diagnostic.warning? name source true) =
        some (warnings.map Warning.fixed) ∧
      ∀ warning ∈ warnings, warning.file = name ∧ warning.isFixed = false := by
  induction diagnostics with
  | nil => exact ⟨[], rfl, rfl, rfl, nofun⟩
  | cons diagnostic diagnostics ih =>
    obtain ⟨⟨first, hplain, hfixed, hfirst⟩, hlater⟩ := List.forall_mem_cons.mp h
    obtain ⟨later, hlength, hplains, hfixeds, hwarnings⟩ := ih hlater
    refine ⟨first :: later, by simp [hlength], ?_, ?_,
      List.forall_mem_cons.mpr ⟨hfirst, hwarnings⟩⟩
    · rw [List.mapM_cons, hplain, hplains]
      rfl
    · rw [List.mapM_cons, hfixed, hfixeds]
      rfl

variable {options : RuleOptions} {root file source : Text}

theorem checkSource_eq_ok {fix : Bool} {diagnostics : List Diagnostic} {warnings : List Warning}
    {written : Option Text} (hl : lintSource options file source = .ok diagnostics)
    (hf : (if fix && !(fixesOf diagnostics).isEmpty then
        (applyFixes source (fixesOf diagnostics)).map some else some none) = some written)
    (hw : diagnostics.mapM (fun diagnostic =>
      diagnostic.warning? (warnedName root file) source fix) = some warnings) :
    checkSource options root file fix source = .ok ⟨warnings, written⟩ := by
  rw [warnedName] at hw
  simp only [checkSource, hl, bind, Except.bind, hw, Option.bind_some]
  by_cases hfix : (fix && !(fixesOf diagnostics).isEmpty) = true
  · rw [if_pos hfix] at hf ⊢
    rw [hf]
    rfl
  · rw [if_neg hfix] at hf ⊢
    obtain rfl := Option.some.inj hf
    rfl

/-- A linted text is checked with the same warnings in both modes. It is fixed if there are any. -/
theorem checkSource_of_lint {diagnostics : List Diagnostic}
    (hl : lintSource options file source = .ok diagnostics) :
    ∃ (warnings : List Warning) (fixed : Text), fixSource options file source = .ok fixed ∧
      (∀ warning ∈ warnings, warning.file = warnedName root file ∧ warning.isFixed = false) ∧
      (warnings = [] ↔ diagnostics = []) ∧
      checkSource options root file false source = .ok ⟨warnings, none⟩ ∧
      checkSource options root file true source = .ok ⟨warnings.map Warning.fixed,
        if diagnostics = [] then none else some fixed⟩ := by
  obtain ⟨declarations, hd, -⟩ := lintSource_eq_ok_iff.mp hl
  obtain ⟨pieces, hp, -⟩ := importDeclarations_eq_ok hd
  obtain ⟨hisFixed, fixed, -, hfixed, hsplice⟩ := fixSource_of_lint hp hl
  have hwarning : ∀ diagnostic ∈ diagnostics, ∃ warning,
      diagnostic.warning? (warnedName root file) source false = some warning ∧
        diagnostic.warning? (warnedName root file) source true = some warning.fixed ∧
        warning.file = warnedName root file ∧ warning.isFixed = false := by
    intro diagnostic hm
    obtain ⟨replacement, hfix⟩ := hisFixed diagnostic hm
    have hmem := List.mem_filterMap.mpr ⟨diagnostic, hm, hfix⟩
    obtain ⟨before, inside, after, ht, hs⟩ := hsplice.split _ hmem
    exact warning?_of_isFixed (hisFixed diagnostic hm) ht (by simpa using hs)
  obtain ⟨warnings, hlength, hplain, hmarked, hnamed⟩ := warnings_of_diagnostics hwarning
  have hempty : fixesOf diagnostics = [] ↔ diagnostics = [] := by
    constructor
    · intro hnone
      cases diagnostics with
      | nil => rfl
      | cons diagnostic diagnostics =>
        obtain ⟨replacement, hfix⟩ := hisFixed diagnostic (.head _)
        simp [fixesOf, hfix] at hnone
    · rintro rfl
      rfl
  refine ⟨warnings, fixed, hfixed, hnamed, ?_, ?_, ?_⟩
  · rw [← List.length_eq_zero_iff, hlength, List.length_eq_zero_iff]
  · exact checkSource_eq_ok hl (by simp) hplain
  · refine checkSource_eq_ok hl ?_ hmarked
    by_cases hd : diagnostics = []
    · simp [hd, fixesOf]
    · have hfixes : fixesOf diagnostics ≠ [] := mt hempty.mp hd
      simp [hd, hfixes, hsplice.applyFixes_eq]

theorem importDeclarations_eq_error {failure : Failure}
    (h : importDeclarations file source = .error failure) : failure = .unparsable file 1 := by
  unfold importDeclarations at h
  split at h
  · cases h
  · exact (Except.error.inj h).symm

theorem lintSource_of_unparsable {failure : Failure}
    (h : importDeclarations file source = .error failure) :
    lintSource options file source = .error failure := by
  simp only [lintSource, h]
  rfl

theorem checkSource_of_unlinted {failure : Failure} (fix : Bool)
    (h : lintSource options file source = .error failure) :
    checkSource options root file fix source = .error failure := by
  simp only [checkSource, h]
  rfl

theorem checkFile_of_unreadable {system : FileSystem} {error : SystemError} (fix : Bool)
    (hr : system.readText file = .error error) :
    checkFile options root fix system file = .error (.unreadable file error) := by
  simp only [checkFile, hr]
  rfl

theorem checkFile_of_read {system : FileSystem} (fix : Bool)
    (hr : system.readText file = .ok source) :
    checkFile options root fix system file = checkSource options root file fix source := by
  simp only [checkFile, hr]
  rfl

/-- A file that is not skipped: what linting and fixing its text comes to, and its checks. -/
structure IsChecked (options : RuleOptions) (root file : Text) (system : FileSystem)
    (source : Text) (diagnostics : List Diagnostic) (warnings : List Warning) (fixed : Text) :
    Prop where
  read : system.readText file = .ok source
  lint : lintSource options file source = .ok diagnostics
  fix : fixSource options file source = .ok fixed
  named : ∀ warning ∈ warnings, warning.file = warnedName root file ∧ warning.isFixed = false
  empty : warnings = [] ↔ diagnostics = []
  dry : checkFile options root false system file = .ok ⟨warnings, none⟩
  real : checkFile options root true system file = .ok ⟨warnings.map Warning.fixed,
    if diagnostics = [] then none else some fixed⟩

/-- A file that is skipped, in either mode for the same reason. -/
structure IsSkipped (options : RuleOptions) (root file : Text) (system : FileSystem)
    (failure : Failure) : Prop where
  notAborted : failure ≠ .aborted
  unlinted : ∀ source, system.readText file = .ok source →
    lintSource options file source = .error failure
  check : ∀ fix, checkFile options root fix system file = .error failure

theorem isSkipped_or_isChecked (hn : options.ReturnsNormally) (root file : Text)
    (system : FileSystem) : (∃ failure, IsSkipped options root file system failure) ∨
      ∃ source diagnostics warnings fixed,
        IsChecked options root file system source diagnostics warnings fixed := by
  cases hr : system.readText file with
  | error error =>
    have hunread : ∀ source, system.readText file = .ok source →
        lintSource options file source = .error (.unreadable file error) := by
      intro source hsource
      rw [hr] at hsource
      cases hsource
    exact .inl ⟨.unreadable file error, nofun, hunread, fun fix => checkFile_of_unreadable fix hr⟩
  | ok source =>
    cases hd : importDeclarations file source with
    | error failure =>
      have hl : lintSource options file source = .error failure := lintSource_of_unparsable hd
      refine .inl ⟨failure, ?_, ?_, fun fix => ?_⟩
      · rw [importDeclarations_eq_error hd]
        nofun
      · intro other hother
        obtain rfl := Except.ok.inj (hr.symm.trans hother)
        exact hl
      · rw [checkFile_of_read fix hr, checkSource_of_unlinted fix hl]
    | ok declarations =>
      obtain ⟨diagnostics, hl⟩ := lintSource_returns hn hd
      obtain ⟨warnings, fixed, hfixed, hnamed, hempty, hdry, hreal⟩ :=
        checkSource_of_lint hl
      refine .inr ⟨source, diagnostics, warnings, fixed, hr, hl, hfixed, hnamed, hempty, ?_, ?_⟩
      · rw [checkFile_of_read false hr, hdry]
      · rw [checkFile_of_read true hr, hreal]

end DirectImports
