import DirectImports.Proofs.FileTree
import DirectImports.Proofs.PositionOrder
import DirectImports.Proofs.SourceCheck
import DirectImports.Proofs.Spans

/-! The warnings of one file. They come in the order of their places, no two at one place, and all
are marked as the run goes: as fixed if it fixes, as left otherwise. -/

namespace DirectImports

/-- Every diagnostic has the span of a declaration, and they come in the same order. -/
theorem spans_sublist {options : RuleOptions} {declarations : List ImportDeclaration}
    {diagnostics : List Diagnostic}
    (h : dispatchAll options.handlers declarations = some diagnostics) :
    (diagnostics.map Diagnostic.span).Sublist (declarations.map ImportDeclaration.span) := by
  induction declarations generalizing diagnostics with
  | nil =>
    obtain rfl : [] = diagnostics := Option.some.inj h
    exact .slnil
  | cons declaration declarations ih =>
    rw [dispatchAll_cons, Option.bind_eq_some_iff] at h
    obtain ⟨first, hfirst, h⟩ := h
    obtain ⟨later, hlater, rfl⟩ := Option.map_eq_some_iff.mp h
    have hspans := ih hlater
    rw [handler_eq] at hfirst
    cases hb : options.barrelOf? declaration with
    | none =>
      rw [hb] at hfirst
      obtain rfl := Option.some.inj hfirst
      exact hspans.cons _
    | some pattern =>
      rw [hb] at hfirst
      obtain ⟨statements, -, rfl⟩ := Option.map_eq_some_iff.mp hfirst
      exact hspans.cons_cons _

theorem lintSource_ordered {options : RuleOptions} {path source : Text}
    {diagnostics : List Diagnostic} (h : lintSource options path source = .ok diagnostics) :
    diagnostics.Pairwise fun a b => a.span.start < b.span.start := by
  obtain ⟨declarations, hd, hdispatch⟩ := lintSource_eq_ok_iff.mp h
  have hstarts : (declarations.map ImportDeclaration.span).Pairwise fun a b => a.start < b.start :=
    List.pairwise_map.mpr (starts_of_declarations hd)
  have hspans := hstarts.sublist (spans_sublist hdispatch)
  rwa [List.pairwise_map] at hspans

theorem pairwise_of_mapM {α β : Type} {f : α → Option β} {xs : List α} {ys : List β}
    {R : α → α → Prop} {S : β → β → Prop} (h : xs.mapM f = some ys) (hr : xs.Pairwise R)
    (hs : ∀ a b c d, R a b → f a = some c → f b = some d → S c d) : ys.Pairwise S := by
  induction xs generalizing ys with
  | nil =>
    obtain rfl : [] = ys := Option.some.inj h
    exact .nil
  | cons x xs ih =>
    rw [List.mapM_cons] at h
    obtain ⟨y, hy, h⟩ := Option.bind_eq_some_iff.mp h
    obtain ⟨later, hl, h⟩ := Option.bind_eq_some_iff.mp h
    obtain rfl := Option.some.inj h
    obtain ⟨hx, hr⟩ := List.pairwise_cons.mp hr
    refine .cons (fun z hz => ?_) (ih hl hr)
    obtain ⟨w, hw, hwz⟩ := mem_of_mapM hl z hz
    exact hs x w y z (hx w hw) hy hwz

theorem warning?_eq_some {diagnostic : Diagnostic} {name source : Text} {fix : Bool}
    {warning : Warning} (h : diagnostic.warning? name source fix = some warning) :
    positionAt source diagnostic.span.start = some warning.position ∧ warning.file = name ∧
      warning.isFixed = (fix && diagnostic.fix.isSome) := by
  obtain ⟨position, hp, h⟩ := Option.bind_eq_some_iff.mp h
  obtain ⟨statement, -, h⟩ := Option.bind_eq_some_iff.mp h
  obtain rfl := Option.some.inj h
  exact ⟨hp, rfl, rfl⟩

/-- What holds of the warnings of a file. -/
structure AreWarningsOf (name : Text) (fix : Bool) (warnings : List Warning) : Prop where
  named : ∀ warning ∈ warnings, warning.file = name
  marked : ∀ warning ∈ warnings, warning.isFixed = fix
  ordered : warnings.Pairwise fun a b => a.position.IsBefore b.position

variable {options : RuleOptions} {root file source : Text} {fix : Bool} {check : FileCheck}

theorem checkSource_diagnostics
    (h : checkSource options root file fix source = .ok check) :
    ∃ diagnostics, lintSource options file source = .ok diagnostics ∧
      diagnostics.mapM (fun diagnostic =>
        diagnostic.warning? (warnedName root file) source fix) = some check.warnings := by
  obtain ⟨diagnostics, hl, h⟩ := except_bind_eq_ok.mp h
  refine ⟨diagnostics, hl, ?_⟩
  simp only at h
  split at h
  next found hc =>
    obtain rfl := Except.ok.inj h
    have hbind : ∃ written : Option (Option Text), (do
        let fixed ← written
        return ⟨← diagnostics.mapM fun diagnostic =>
          diagnostic.warning? (warnedName root file) source fix, fixed⟩) = some found := by
      split at hc
      · exact ⟨_, hc⟩
      · exact ⟨_, hc⟩
    obtain ⟨written, hbind⟩ := hbind
    obtain ⟨fixed, -, hbind⟩ := Option.bind_eq_some_iff.mp hbind
    obtain ⟨warnings, hw, hbind⟩ := Option.bind_eq_some_iff.mp hbind
    obtain rfl := Option.some.inj hbind
    exact hw
  next => cases h

theorem checkSource_warnings (h : checkSource options root file fix source = .ok check) :
    AreWarningsOf (warnedName root file) fix check.warnings := by
  obtain ⟨diagnostics, hl, hw⟩ := checkSource_diagnostics h
  have hstarts := lintSource_ordered hl
  obtain ⟨declarations, hd, -⟩ := lintSource_eq_ok_iff.mp hl
  obtain ⟨pieces, hp, -⟩ := importDeclarations_eq_ok hd
  have hfixed := (fixSource_of_lint hp hl).1
  constructor
  case named =>
    intro warning hm
    obtain ⟨diagnostic, -, hwarning⟩ := mem_of_mapM hw warning hm
    exact (warning?_eq_some hwarning).2.1
  case marked =>
    intro warning hm
    obtain ⟨diagnostic, hdiagnostic, hwarning⟩ := mem_of_mapM hw warning hm
    obtain ⟨replacement, hfix⟩ := hfixed diagnostic hdiagnostic
    rw [(warning?_eq_some hwarning).2.2, hfix, Option.isSome_some, Bool.and_true]
  case ordered =>
    refine pairwise_of_mapM hw hstarts fun a b c d hab hc hd => ?_
    exact positionAt_isBefore hab (warning?_eq_some hc).1 (warning?_eq_some hd).1

theorem checkFile_warnings {system : FileSystem}
    (h : checkFile options root fix system file = .ok check) :
    AreWarningsOf (warnedName root file) fix check.warnings := by
  obtain ⟨source, -, h⟩ := except_bind_eq_ok.mp h
  exact checkSource_warnings h

end DirectImports
