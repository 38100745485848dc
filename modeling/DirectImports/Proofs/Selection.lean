import Mathlib
import DirectImports.Notice
import DirectImports.Proofs.Boundary
import DirectImports.Proofs.Sorting

/-! Which fixes are kept. The fixes are gone through in the order of their spans, and a fix is kept
unless it starts inside one that has been kept before. What is kept makes one splice. -/

namespace DirectImports

theorem Span.precedes_iff {a b : Span} : a.precedes b = true ↔
    a.start < b.start ∨ (a.start = b.start ∧ a.stop ≤ b.stop) := by
  simp [Span.precedes]

/-- Fixes in the order of their spans. Fixes of one span stay in the order in which they were. -/
structure IsSpanOrder (fixes sorted : List Fix) : Prop where
  perm : sorted.Perm fixes
  ordered : sorted.Pairwise fun a b => a.span.start < b.span.start ∨
    (a.span.start = b.span.start ∧ a.span.stop ≤ b.span.stop)
  stable : ∀ span, sorted.filter (fun fix => fix.span = span) =
    fixes.filter fun fix => fix.span = span

theorem Fix.precedes_trans (a b c : Fix) (hab : a.span.precedes b.span = true)
    (hbc : b.span.precedes c.span = true) : a.span.precedes c.span = true := by
  rw [Span.precedes_iff] at hab hbc ⊢
  omega

theorem Fix.precedes_total (a b : Fix) :
    (a.span.precedes b.span || b.span.precedes a.span) = true := by
  rw [Bool.or_eq_true, Span.precedes_iff, Span.precedes_iff]
  omega

theorem sortFixes_ordered (fixes : List Fix) :
    (sortFixes fixes).Pairwise fun a b => a.span.precedes b.span = true :=
  List.pairwise_mergeSort Fix.precedes_trans Fix.precedes_total fixes

theorem sortFixes_isSpanOrder (fixes : List Fix) : IsSpanOrder fixes (sortFixes fixes) := by
  have hperm : (sortFixes fixes).Perm fixes := List.mergeSort_perm _ _
  refine ⟨hperm, ?_, fun span => ?_⟩
  · exact (sortFixes_ordered fixes).imp Span.precedes_iff.mp
  · refine filter_mergeSort Fix.precedes_trans Fix.precedes_total (fun a b ha hb => ?_) fixes
    rw [Span.precedes_iff, of_decide_eq_true ha, of_decide_eq_true hb]
    omega

/-- Fixes chosen from the front: what is kept starts where all that was kept before has ended, and
what is skipped starts inside something that was kept before. -/
inductive Chosen : List Fix → List Fix → List Fix → List Fix → Prop
  | nil (before : List Fix) : Chosen before [] [] []
  | keep {before fixes kept skipped : List Fix} {fix : Fix}
      (hk : ∀ earlier ∈ before, earlier.span.stop ≤ fix.span.start)
      (hl : Chosen (before ++ [fix]) fixes kept skipped) :
      Chosen before (fix :: fixes) (fix :: kept) skipped
  | skip {before fixes kept skipped : List Fix} {fix earlier : Fix} (he : earlier ∈ before)
      (hs : earlier.span.start ≤ fix.span.start) (hi : fix.span.start < earlier.span.stop)
      (hl : Chosen before fixes kept skipped) :
      Chosen before (fix :: fixes) kept (fix :: skipped)

namespace Chosen

variable {before fixes kept skipped : List Fix}

theorem sublist (h : Chosen before fixes kept skipped) : kept.Sublist fixes := by
  induction h with
  | nil => exact .slnil
  | keep _ _ ih => exact ih.cons_cons _
  | skip _ _ _ _ ih => exact ih.cons _

theorem perm (h : Chosen before fixes kept skipped) : (kept ++ skipped).Perm fixes := by
  induction h with
  | nil => exact .nil
  | keep _ _ ih => exact ih.cons _
  | skip _ _ _ _ ih => exact List.perm_middle.trans (ih.cons _)

theorem apart (h : Chosen before fixes kept skipped) :
    (∀ earlier ∈ before, ∀ fix ∈ kept, earlier.span.stop ≤ fix.span.start) ∧
      kept.Pairwise fun a b => a.span.stop ≤ b.span.start := by
  induction h with
  | nil => exact ⟨nofun, .nil⟩
  | keep hk _ ih =>
    obtain ⟨hbefore, hkept⟩ := ih
    refine ⟨fun earlier he => List.forall_mem_cons.mpr ⟨hk earlier he, ?_⟩, .cons ?_ hkept⟩
    · exact hbefore earlier (List.mem_append_left _ he)
    · exact hbefore _ (by simp)
  | skip _ _ _ _ ih => exact ih

theorem covered (h : Chosen before fixes kept skipped) : ∀ fix ∈ skipped,
    ∃ earlier, (earlier ∈ before ∨ earlier ∈ kept) ∧ earlier.span.start ≤ fix.span.start ∧
      fix.span.start < earlier.span.stop := by
  induction h with
  | nil => exact nofun
  | keep _ _ ih =>
    intro fix hm
    obtain ⟨earlier, he, hstart⟩ := ih fix hm
    refine ⟨earlier, ?_, hstart⟩
    rcases he with he | he
    · rcases List.mem_append.mp he with he | he
      · exact .inl he
      · obtain rfl := List.mem_singleton.mp he
        exact .inr (.head _)
    · exact .inr (.tail _ he)
  | skip he hs hi _ ih => exact List.forall_mem_cons.mpr ⟨⟨_, .inl he, hs, hi⟩, ih⟩

/-- There is one choice only. -/
theorem unique (h : Chosen before fixes kept skipped) {kept' skipped' : List Fix}
    (h' : Chosen before fixes kept' skipped') : kept' = kept ∧ skipped' = skipped := by
  induction h generalizing kept' skipped' with
  | nil =>
    cases h'
    exact ⟨rfl, rfl⟩
  | keep hk _ ih =>
    cases h' with
    | keep _ hl =>
      obtain ⟨rfl, rfl⟩ := ih hl
      exact ⟨rfl, rfl⟩
    | skip he _ hi _ =>
      have hend := hk _ he
      omega
  | skip he _ hi _ ih =>
    cases h' with
    | keep hk _ =>
      have hend := hk _ he
      omega
    | skip _ _ _ hl =>
      obtain ⟨rfl, rfl⟩ := ih hl
      exact ⟨rfl, rfl⟩

end Chosen

/-- What is known of the fixes kept so far when the next one is looked at: they have ended by
`last`, and one of them ends there and starts before all that is to come. -/
structure IsFrontier (before fixes : List Fix) (last : Nat) : Prop where
  ended : ∀ earlier ∈ before, earlier.span.stop ≤ last
  reached : 0 < last → ∃ earlier ∈ before, earlier.span.stop = last ∧
    ∀ fix ∈ fixes, earlier.span.start ≤ fix.span.start

theorem IsFrontier.tail {before fixes : List Fix} {fix : Fix} {last : Nat}
    (h : IsFrontier before (fix :: fixes) last) : IsFrontier before fixes last := by
  refine ⟨h.ended, fun hpos => ?_⟩
  obtain ⟨earlier, he, hstop, hstart⟩ := h.reached hpos
  exact ⟨earlier, he, hstop, fun later hm => hstart later (.tail _ hm)⟩

theorem IsFrontier.keep {before fixes : List Fix} {fix : Fix} {last : Nat}
    (h : IsFrontier before (fix :: fixes) last) (hl : last ≤ fix.span.start)
    (hf : fix.span.start ≤ fix.span.stop)
    (ho : ∀ later ∈ fixes, fix.span.start ≤ later.span.start) :
    IsFrontier (before ++ [fix]) fixes fix.span.stop := by
  refine ⟨fun earlier he => ?_, fun _ => ⟨fix, by simp, rfl, ho⟩⟩
  rcases List.mem_append.mp he with he | he
  · have hend := h.ended earlier he
    omega
  · obtain rfl := List.mem_singleton.mp he
    exact Nat.le_refl _

theorem selectFrom_chosen {before fixes : List Fix} {last : Nat}
    (ho : fixes.Pairwise fun a b => a.span.start ≤ b.span.start)
    (hf : ∀ fix ∈ fixes, fix.span.start ≤ fix.span.stop) (h : IsFrontier before fixes last) :
    Chosen before fixes (selectFrom last fixes).kept (selectFrom last fixes).skipped := by
  induction fixes generalizing before last with
  | nil => exact .nil before
  | cons fix fixes ih =>
    obtain ⟨hstart, ho⟩ := List.pairwise_cons.mp ho
    obtain ⟨hfix, hf⟩ := List.forall_mem_cons.mp hf
    by_cases hs : fix.span.start < last
    · obtain ⟨earlier, he, hstop, hbefore⟩ := h.reached (by omega)
      have hlater := ih ho hf h.tail
      rw [selectFrom, if_pos hs]
      exact .skip he (hbefore fix (.head _)) (by omega) hlater
    · have hlast : last ≤ fix.span.start := Nat.le_of_not_lt hs
      have hlater := ih ho hf (h.keep hlast hfix hstart)
      rw [selectFrom, if_neg hs]
      exact .keep (fun earlier he => (h.ended earlier he).trans hlast) hlater

/-- Fixes that fit a text and stand behind each other make a splice. -/
theorem exists_spliced {source before text : Text} {fixes : List Fix}
    (hs : source = before ++ text)
    (hc : fixes.IsChain fun a b => a.span.stop ≤ b.span.start)
    (hb : ∀ fix ∈ fixes.head?, byteLength before ≤ fix.span.start)
    (hf : ∀ fix ∈ fixes, fix.span.Fits source) :
    ∃ fixed, Spliced (byteLength before) text fixes fixed := by
  induction fixes generalizing before text with
  | nil => exact ⟨text, .rest _ text⟩
  | cons fix fixes ih =>
    obtain ⟨hnext, hc⟩ := List.isChain_cons.mp hc
    obtain ⟨hfix, hf⟩ := List.forall_mem_cons.mp hf
    obtain ⟨front, inside, after, htext, hspan⟩ := Span.fits_iff.mp hfix
    have hstart : byteLength before ≤ byteLength front := by
      have hle : byteLength before ≤ fix.span.start := hb fix rfl
      rwa [hspan] at hle
    obtain ⟨gap, rfl, rfl⟩ := exists_append_of_byteLength_le (hs.symm.trans htext) hstart
    have hstop : byteLength (before ++ gap ++ inside) = fix.span.stop := by
      rw [hspan, byteLength_append]
    have hsource : source = (before ++ gap ++ inside) ++ after := by
      rw [htext, List.append_assoc (before ++ gap)]
    obtain ⟨fixed, hlater⟩ := ih hsource hc (by rwa [hstop]) hf
    rw [hstop] at hlater
    rw [byteLength_append] at hspan
    exact ⟨_, .fix hspan hlater⟩

/-- A splice is as much longer than the text as what is put in than what is taken out. -/
theorem Spliced.byteLength_eq {offset : Nat} {text fixed : Text} {fixes : List Fix}
    (h : Spliced offset text fixes fixed) :
    byteLength fixed + (fixes.map fun fix => fix.span.stop - fix.span.start).sum =
      byteLength text + (fixes.map fun fix => byteLength fix.replacement).sum := by
  induction h with
  | rest => rfl
  | @fix offset gap inside text fixed fix later hs hl ih =>
    have hspan : fix.span.stop - fix.span.start = byteLength inside := by
      rw [hs]
      exact Nat.add_sub_cancel_left ..
    simp only [List.map_cons, List.sum_cons, byteLength_append, hspan]
    omega

theorem select_chosen {fixes : List Fix} (hf : ∀ fix ∈ fixes, fix.span.start ≤ fix.span.stop) :
    Chosen [] (sortFixes fixes) (select fixes).kept (select fixes).skipped := by
  have horder := sortFixes_isSpanOrder fixes
  refine selectFrom_chosen ?_ (fun fix hm => hf fix (horder.perm.subset hm)) ⟨nofun, nofun⟩
  refine horder.ordered.imp fun h => ?_
  omega

/-- Applying fixes that fit a text is one splice. Of the fixes in the order of their spans those are
kept that do not start inside one kept before. Every other fix is skipped with a notice. -/
theorem applyFixes_splices {source : Text} {fixes : List Fix}
    (hf : ∀ fix ∈ fixes, fix.span.Fits source) :
    ∃ sorted, IsSpanOrder fixes sorted ∧
      Chosen [] sorted (select fixes).kept (select fixes).skipped ∧
      (∀ kept skipped, Chosen [] sorted kept skipped →
        kept = (select fixes).kept ∧ skipped = (select fixes).skipped) ∧
      (select fixes).kept.Sublist sorted ∧
      ((select fixes).kept ++ (select fixes).skipped).Perm fixes ∧
      (select fixes).kept.IsChain (fun a b => a.span.stop ≤ b.span.start) ∧
      (∀ fix ∈ (select fixes).skipped, ∃ earlier ∈ (select fixes).kept,
        earlier.span.start ≤ fix.span.start ∧ fix.span.start < earlier.span.stop) ∧
      fixNotices fixes = (select fixes).skipped.map (fun fix => .skippedFix fix.span) ∧
      ∃ fixed, applyFixes source fixes = some fixed ∧
        Spliced 0 source (select fixes).kept fixed ∧
        byteLength fixed +
            ((select fixes).kept.map fun fix => fix.span.stop - fix.span.start).sum =
          byteLength source +
            ((select fixes).kept.map fun fix => byteLength fix.replacement).sum := by
  have horder := sortFixes_isSpanOrder fixes
  have hchosen := select_chosen fun fix hm => (hf fix hm).forward
  have hperm := hchosen.perm.trans horder.perm
  have hchain := hchosen.apart.2.isChain
  have hkept : ∀ fix ∈ (select fixes).kept, fix.span.Fits source := fun fix hm =>
    hf fix (hperm.subset (List.mem_append_left _ hm))
  have hsource : source = [] ++ source := rfl
  obtain ⟨fixed, hspliced⟩ := exists_spliced hsource hchain (fun _ _ => Nat.zero_le _) hkept
  have happlied : applyInReverse ([] ++ source) (select fixes).kept = some ([] ++ fixed) :=
    hspliced.applied rfl
  refine ⟨_, horder, hchosen, fun _ _ => hchosen.unique, hchosen.sublist, hperm, hchain,
    fun fix hm => ?_, rfl, fixed, happlied, hspliced, hspliced.byteLength_eq⟩
  obtain ⟨earlier, he, hstart⟩ := hchosen.covered fix hm
  exact ⟨earlier, he.resolve_left List.not_mem_nil, hstart⟩

def tangledText : Text :=
  "aébc".toList

/-- An insertion inside a replaced span, two at one place, and one at the end. -/
def tangledFixes : List Fix :=
  [⟨⟨3, 4⟩, ['B']⟩, ⟨⟨0, 3⟩, ['X']⟩, ⟨⟨1, 1⟩, ['i']⟩, ⟨⟨3, 3⟩, ['1']⟩, ⟨⟨3, 3⟩, ['2']⟩,
    ⟨⟨5, 5⟩, ['!']⟩]

def tangledSelection : Selection where
  kept := [⟨⟨0, 3⟩, ['X']⟩, ⟨⟨3, 3⟩, ['1']⟩, ⟨⟨3, 3⟩, ['2']⟩, ⟨⟨3, 4⟩, ['B']⟩, ⟨⟨5, 5⟩, ['!']⟩]
  skipped := [⟨⟨1, 1⟩, ['i']⟩]

theorem tangledFixes_fit : ∀ fix ∈ tangledFixes, fix.span.Fits tangledText := by
  decide

theorem tangledFixes_select : select tangledFixes = tangledSelection := by
  cbv

theorem tangledFixes_spliced : (∀ fix ∈ tangledFixes, fix.span.Fits tangledText) ∧
    (∃ sorted, IsSpanOrder tangledFixes sorted ∧
      Chosen [] sorted tangledSelection.kept tangledSelection.skipped) ∧
    fixNotices tangledFixes = [.skippedFix ⟨1, 1⟩] ∧
    applyFixes tangledText tangledFixes = some "X12Bc!".toList ∧
    Spliced 0 tangledText tangledSelection.kept "X12Bc!".toList := by
  obtain ⟨sorted, horder, hchosen, -, -, -, -, -, hnotices, fixed, hfixed, hspliced, -⟩ :=
    applyFixes_splices tangledFixes_fit
  rw [tangledFixes_select] at hchosen hnotices hspliced
  have hresult : applyFixes tangledText tangledFixes = some "X12Bc!".toList := by
    cbv
  obtain rfl := Option.some.inj (hfixed.symm.trans hresult)
  exact ⟨tangledFixes_fit, ⟨sorted, horder, hchosen⟩, hnotices, hresult, hspliced⟩

end DirectImports
