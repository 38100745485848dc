import DirectImports.Proofs.Pieces
import DirectImports.Rule

/-! Fixes of disjoint spans. Applied from the back, they replace these spans and leave everything
else as it is. -/

namespace DirectImports

theorem Span.split_append (before inside after : Text) :
    Span.split ⟨byteLength before, byteLength before + byteLength inside⟩
      (before ++ (inside ++ after)) = some (before, inside, after) := by
  have hle : ¬byteLength before + byteLength inside < byteLength before := by omega
  have hsub : byteLength before + byteLength inside - byteLength before = byteLength inside := by
    omega
  simp [Span.split, hle, hsub, cutAt_append]

theorem Span.replace_append (before inside after replacement : Text) :
    Span.replace ⟨byteLength before, byteLength before + byteLength inside⟩ replacement
      (before ++ (inside ++ after)) = some (before ++ (replacement ++ after)) := by
  simp [Span.replace, Span.split_append]

/-- The text with fixed spans: the spans lie behind each other, and what stands before, between
and behind them stays. The text itself begins at the offset. -/
inductive Spliced : Nat → Text → List Fix → Text → Prop
  | rest (offset : Nat) (text : Text) : Spliced offset text [] text
  | fix {offset : Nat} {gap inside text fixed : Text} {fix : Fix} {later : List Fix}
      (hs : fix.span = ⟨offset + byteLength gap, offset + byteLength gap + byteLength inside⟩)
      (hl : Spliced fix.span.stop text later fixed) :
      Spliced offset (gap ++ (inside ++ text)) (fix :: later)
        (gap ++ (fix.replacement ++ fixed))

theorem Spliced.append {offset : Nat} {text fixed : Text} {fixes : List Fix} (gap : Text)
    (h : Spliced (offset + byteLength gap) text fixes fixed) :
    Spliced offset (gap ++ text) fixes (gap ++ fixed) := by
  cases h with
  | rest => exact .rest offset _
  | @fix _ gap' inside text fixed fix later hs hl =>
    have hspan : fix.span = ⟨offset + byteLength (gap ++ gap'),
        offset + byteLength (gap ++ gap') + byteLength inside⟩ := by
      rw [hs, byteLength_append, ← Nat.add_assoc]
    simpa only [List.append_assoc] using Spliced.fix hspan hl

theorem Spliced.le_start {offset : Nat} {text fixed : Text} {fixes : List Fix}
    (h : Spliced offset text fixes fixed) :
    ∀ fix ∈ fixes, offset ≤ fix.span.start ∧ fix.span.start ≤ fix.span.stop := by
  induction h with
  | rest => simp
  | fix hs _ ih =>
    intro other ho
    rcases List.mem_cons.mp ho with rfl | ho
    · simp only [hs]
      omega
    · have hle := ih other ho
      simp only [hs] at hle
      omega

theorem Spliced.ordered {offset : Nat} {text fixed : Text} {fixes : List Fix}
    (h : Spliced offset text fixes fixed) :
    fixes.Pairwise fun a b => a.span.precedes b.span = true := by
  induction h with
  | rest => exact .nil
  | @fix offset gap inside text fixed fix later hs hl ih =>
    refine .cons (fun other ho => ?_) ih
    have hle := hl.le_start other ho
    have hstart : fix.span.start ≤ fix.span.stop := by
      simp only [hs]
      omega
    simp only [Span.precedes, Bool.or_eq_true, Bool.and_eq_true, decide_eq_true_eq, beq_iff_eq]
    omega

theorem Spliced.sorted {offset : Nat} {text fixed : Text} {fixes : List Fix}
    (h : Spliced offset text fixes fixed) : sortFixes fixes = fixes :=
  List.mergeSort_of_pairwise h.ordered

theorem Spliced.all_kept {offset last : Nat} {text fixed : Text} {fixes : List Fix}
    (h : Spliced offset text fixes fixed) (hl : last ≤ offset) :
    selectFrom last fixes = ⟨fixes, []⟩ := by
  induction h generalizing last with
  | rest => rfl
  | @fix offset gap inside text fixed fix later hs _ ih =>
    have hstart : ¬fix.span.start < last := by
      simp only [hs]
      omega
    simp [selectFrom, hstart, ih (Nat.le_refl _)]

theorem Spliced.select_eq {text fixed : Text} {fixes : List Fix}
    (h : Spliced 0 text fixes fixed) : select fixes = ⟨fixes, []⟩ := by
  rw [select, h.sorted, h.all_kept (Nat.le_refl 0)]

theorem Spliced.applied {text fixed : Text} {offset : Nat} {fixes : List Fix}
    (h : Spliced offset text fixes fixed) {before : Text} (hb : byteLength before = offset) :
    applyInReverse (before ++ text) fixes = some (before ++ fixed) := by
  induction h generalizing before with
  | rest => rfl
  | @fix offset gap inside text fixed fix later hs hl ih =>
    subst hb
    have hstop : byteLength (before ++ gap ++ inside) = fix.span.stop := by
      simp only [hs, byteLength_append]
    have hlater := ih hstop
    have hrep := Span.replace_append (before ++ gap) inside fixed fix.replacement
    rw [byteLength_append, ← hs] at hrep
    simp only [List.append_assoc] at hlater hrep ⊢
    simp only [applyInReverse, hlater, Option.bind_some, hrep]

/-- No fix is skipped, and together they are one splice. -/
theorem Spliced.applyFixes_eq {text fixed : Text} {fixes : List Fix}
    (h : Spliced 0 text fixes fixed) : applyFixes text fixes = some fixed := by
  have ha : applyInReverse ([] ++ text) fixes = some ([] ++ fixed) := h.applied rfl
  rwa [applyFixes, h.select_eq]

end DirectImports
