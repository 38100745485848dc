import DirectImports.Proofs.FixRefusal

/-! The order in which fixes are given. It matters only between fixes of one span. Of those, if
there is something inside the span, only the first is ever kept. -/

namespace DirectImports

theorem Span.eq_of_precedes {a b : Span} (hab : a.precedes b = true) (hba : b.precedes a = true) :
    a = b := by
  rw [Span.precedes_iff] at hab hba
  obtain ⟨start, stop⟩ := a
  obtain ⟨start', stop'⟩ := b
  simp only [Span.mk.injEq] at hab hba ⊢
  omega

theorem sortFixes_of_perm {fixes others : List Fix} (hp : others.Perm fixes)
    (hs : ∀ a ∈ fixes, ∀ b ∈ fixes, a.span = b.span → a = b) :
    sortFixes others = sortFixes fixes := by
  refine mergeSort_eq_of_perm Fix.precedes_trans Fix.precedes_total hp fun a ha b hb hab hba => ?_
  exact hs a ha b hb (Span.eq_of_precedes hab hba)

theorem selectFrom_append_of_lt {last : Nat} {before fixes : List Fix}
    (h : ∀ fix ∈ before, fix.span.start < last) :
    (selectFrom last (before ++ fixes)).kept = (selectFrom last fixes).kept := by
  induction before with
  | nil => rfl
  | cons fix before ih =>
    obtain ⟨hfix, hbefore⟩ := List.forall_mem_cons.mp h
    rw [List.cons_append, selectFrom, if_pos hfix]
    exact ih hbefore

def firstAt (span : Span) (fixes : List Fix) : Option Fix :=
  fixes.find? fun fix => fix.span = span

theorem firstAt_eq_none_iff {span : Span} {fixes : List Fix} :
    firstAt span fixes = none ↔ ∀ fix ∈ fixes, fix.span ≠ span := by
  simp [firstAt]

theorem firstAt_append_of_ne {span : Span} {before : List Fix}
    (h : ∀ fix ∈ before, fix.span ≠ span) (fixes : List Fix) :
    firstAt span (before ++ fixes) = firstAt span fixes := by
  have hnone : firstAt span before = none := firstAt_eq_none_iff.mpr h
  rw [firstAt] at hnone ⊢
  rw [List.find?_append, hnone, Option.none_or]
  rfl

theorem firstAt_cons_of_ne {span : Span} {fix : Fix} (h : fix.span ≠ span) (fixes : List Fix) :
    firstAt span (fix :: fixes) = firstAt span fixes :=
  firstAt_append_of_ne (List.forall_mem_singleton.mpr h) fixes

/-- Whether two lists of fixes have the same first fix for every span that starts at `last` or
behind. What starts before is skipped anyway. -/
def HaveSameFirsts (last : Nat) (a b : List Fix) : Prop :=
  ∀ span : Span, last ≤ span.start → firstAt span a = firstAt span b

namespace HaveSameFirsts

variable {last : Nat} {a b : List Fix} {fix : Fix}

theorem nil (h : HaveSameFirsts last [] b) : ∀ fix ∈ b, fix.span.start < last := by
  intro fix hm
  by_contra hle
  have hnone := h fix.span (Nat.le_of_not_lt hle)
  exact firstAt_eq_none_iff.mp hnone.symm fix hm rfl

theorem tail (h : HaveSameFirsts last (fix :: a) b) (hs : fix.span.start < last) :
    HaveSameFirsts last a b := by
  intro span hl
  have hspan : fix.span ≠ span := by
    rintro rfl
    omega
  rw [← firstAt_cons_of_ne hspan a]
  exact h span hl

theorem split (h : HaveSameFirsts last (fix :: a) b) (hl : last ≤ fix.span.start)
    (ha : (fix :: a).Pairwise fun x y => x.span.precedes y.span = true)
    (hb : b.Pairwise fun x y => x.span.precedes y.span = true) :
    ∃ before later, b = before ++ fix :: later ∧ ∀ other ∈ before, other.span.start < last := by
  have hfound : firstAt fix.span b = some fix := by
    rw [← h fix.span hl]
    exact List.find?_cons_of_pos (by simp)
  obtain ⟨-, before, later, rfl, hother⟩ := List.find?_eq_some_iff_append.mp hfound
  refine ⟨before, later, rfl, fun other hm => ?_⟩
  -- Otherwise the first list has a fix of that span too, behind its head, and each of the two spans
  -- comes before the other.
  by_contra hle
  have hne : other.span ≠ fix.span := by simpa using hother other hm
  have hprecedes : other.span.precedes fix.span = true :=
    (List.pairwise_append.mp hb).2.2 other hm fix (.head _)
  have hsome : firstAt other.span (fix :: a) ≠ none := by
    rw [h other.span (Nat.le_of_not_lt hle), ne_eq, firstAt_eq_none_iff]
    exact fun hnone => hnone other (List.mem_append_left _ hm) rfl
  rw [firstAt_cons_of_ne hne.symm, ne_eq, firstAt_eq_none_iff] at hsome
  push Not at hsome
  obtain ⟨found, hm', hspan⟩ := hsome
  have hfollows : fix.span.precedes other.span = true :=
    hspan ▸ (List.pairwise_cons.mp ha).1 found hm'
  exact hne (Span.eq_of_precedes hprecedes hfollows)

theorem later {before later : List Fix} {next : Nat}
    (h : HaveSameFirsts last (fix :: a) (before ++ fix :: later)) (hl : last ≤ fix.span.start)
    (hb : ∀ other ∈ before, other.span.start < last) (hn : fix.span.start < next) :
    HaveSameFirsts next a later := by
  intro span hs
  have hfix : fix.span ≠ span := by
    rintro rfl
    omega
  have hbefore : ∀ other ∈ before, other.span ≠ span := by
    rintro other hm rfl
    have hstart := hb other hm
    omega
  rw [← firstAt_cons_of_ne hfix a, h span (by omega), firstAt_append_of_ne hbefore,
    firstAt_cons_of_ne hfix]

end HaveSameFirsts

/-- Of fixes in the order of their spans, each with something inside, only the first of a span can
be kept. -/
theorem selectFrom_of_firsts {last : Nat} {a b : List Fix} (h : HaveSameFirsts last a b)
    (ha : a.Pairwise fun x y => x.span.precedes y.span = true)
    (hb : b.Pairwise fun x y => x.span.precedes y.span = true)
    (hn : ∀ fix ∈ a, fix.span.start < fix.span.stop) :
    (selectFrom last a).kept = (selectFrom last b).kept := by
  -- Each fix that is kept moves both lists behind itself, and they have the same firsts again.
  induction a generalizing b last with
  | nil =>
    have hkept : (selectFrom last (b ++ [])).kept = (selectFrom last []).kept :=
      selectFrom_append_of_lt h.nil
    rw [List.append_nil] at hkept
    exact hkept.symm
  | cons fix a ih =>
    obtain ⟨-, ha'⟩ := List.pairwise_cons.mp ha
    obtain ⟨hfix, hn⟩ := List.forall_mem_cons.mp hn
    by_cases hs : fix.span.start < last
    · rw [selectFrom, if_pos hs]
      exact ih (h.tail hs) ha' hb hn
    · have hlast : last ≤ fix.span.start := Nat.le_of_not_lt hs
      obtain ⟨before, later, rfl, hbefore⟩ := h.split hlast ha hb
      obtain ⟨-, hlater⟩ := List.pairwise_cons.mp (List.pairwise_append.mp hb).2.1
      have hkept := ih (h.later hlast hbefore hfix) ha' hlater hn
      rw [selectFrom_append_of_lt hbefore, selectFrom, if_neg hs, selectFrom, if_neg hs]
      exact congrArg (fix :: ·) hkept

theorem select_append_self {fixes : List Fix}
    (hn : ∀ fix ∈ fixes, fix.span.start < fix.span.stop) :
    (select (fixes ++ fixes)).kept = (select fixes).kept := by
  have hfixes := sortFixes_isSpanOrder fixes
  have hdouble := sortFixes_isSpanOrder (fixes ++ fixes)
  have hfirsts : HaveSameFirsts 0 (sortFixes fixes) (sortFixes (fixes ++ fixes)) := by
    intro span _
    rw [firstAt, firstAt, ← List.head?_filter, ← List.head?_filter, hfixes.stable, hdouble.stable,
      List.filter_append, List.head?_append, Option.or_self]
  have hsorted : ∀ fix ∈ sortFixes fixes, fix.span.start < fix.span.stop :=
    fun fix hm => hn fix (hfixes.perm.subset hm)
  exact (selectFrom_of_firsts hfirsts (sortFixes_ordered _) (sortFixes_ordered _) hsorted).symm

theorem exists_applied {source : Text} {fixes : List Fix}
    (hf : ∀ fix ∈ fixes, fix.span.Fits source) : ∃ fixed, applyFixes source fixes = some fixed := by
  have hkept : ∀ fix ∈ (select fixes).kept, fix.span.Fits source := by
    intro fix hm
    have hsorted : fix ∈ sortFixes fixes := (selectFrom_sublist 0 _).subset hm
    exact hf fix ((sortFixes_isSpanOrder fixes).perm.subset hsorted)
  have hchain := (selectFrom_chain 0 (sortFixes fixes)).2
  refine Option.ne_none_iff_exists'.mp fun hnone => ?_
  obtain ⟨fix, hm, hbad⟩ := (applyInReverse_eq_none_iff hchain).mp hnone
  exact hbad (hkept fix hm)

/-- The order of the fixes does not matter if no two of them have one span, and giving all of them
twice does not matter if each has something inside. -/
theorem applyFixes_perm_and_append_self {source : Text} {fixes : List Fix}
    (hf : ∀ fix ∈ fixes, fix.span.Fits source) :
    ∃ fixed, applyFixes source fixes = some fixed ∧
      ((∀ a ∈ fixes, ∀ b ∈ fixes, a.span = b.span → a = b) →
        ∀ others : List Fix, others.Perm fixes → applyFixes source others = some fixed) ∧
      ((∀ fix ∈ fixes, fix.span.start < fix.span.stop) →
        applyFixes source (fixes ++ fixes) = some fixed) := by
  obtain ⟨fixed, happlied⟩ := exists_applied hf
  refine ⟨fixed, happlied, fun hs others hp => ?_, fun hn => ?_⟩
  · rw [← happlied, applyFixes, select, sortFixes_of_perm hp hs]
    rfl
  · rw [← happlied, applyFixes, select_append_self hn]
    rfl

/-- A fix that stands twice, behind one that is skipped. -/
def overlappingFixes : List Fix :=
  [⟨⟨3, 5⟩, ['B']⟩, ⟨⟨1, 4⟩, []⟩, ⟨⟨0, 3⟩, ['X']⟩, ⟨⟨3, 5⟩, ['B']⟩]

/-- Two fixes of one span. The order decides which of them is kept. -/
def rivalFixes : List Fix :=
  [⟨⟨3, 4⟩, ['1']⟩, ⟨⟨3, 4⟩, ['2']⟩, ⟨⟨0, 1⟩, ['X']⟩]

theorem overlappingFixes_reversed :
    (∀ a ∈ overlappingFixes, ∀ b ∈ overlappingFixes, a.span = b.span → a = b) ∧
      applyFixes tangledText overlappingFixes.reverse = some "XB".toList ∧
      (∀ fix ∈ rivalFixes, fix.span.start < fix.span.stop) ∧
      applyFixes tangledText (rivalFixes ++ rivalFixes) = some "Xé1c".toList := by
  have hfit : ∀ fix ∈ overlappingFixes, fix.span.Fits tangledText := by decide
  have hsame : ∀ a ∈ overlappingFixes, ∀ b ∈ overlappingFixes, a.span = b.span → a = b := by
    decide
  have hfit' : ∀ fix ∈ rivalFixes, fix.span.Fits tangledText := by decide
  have hnonempty : ∀ fix ∈ rivalFixes, fix.span.start < fix.span.stop := by decide
  obtain ⟨fixed, happlied, hperm, -⟩ := applyFixes_perm_and_append_self hfit
  obtain ⟨fixed', happlied', -, hdouble⟩ := applyFixes_perm_and_append_self hfit'
  have hresult : applyFixes tangledText overlappingFixes = some "XB".toList := by cbv
  have hresult' : applyFixes tangledText rivalFixes = some "Xé1c".toList := by cbv
  obtain rfl := Option.some.inj (happlied.symm.trans hresult)
  obtain rfl := Option.some.inj (happlied'.symm.trans hresult')
  exact ⟨hsame, hperm hsame _ (List.reverse_perm _), hnonempty, hdouble hnonempty⟩

end DirectImports
