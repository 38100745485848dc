import Mathlib.Data.List.Induction
import DirectImports.Proofs.PathComponents

/-! The path of a file as it is displayed. It leads from one directory to the file, first up to where
the two part and then down. -/

namespace DirectImports

/-- Where a component leads from a place. Nothing is above the root. -/
def Component.follow (place : Location) : Component → Location
  | root => []
  | current => place
  | parent => place.dropLast
  | child name => place ++ [name]

/-- Where a path leads from a place. -/
def followPath (place : Location) (path : Text) : Location :=
  (components path).foldl Component.follow place

structure IsLongestCommonPrefix {α : Type} (shared a b : List α) : Prop where
  left : shared <+: a
  right : shared <+: b
  longest : ∀ other, other <+: a → other <+: b → other <+: shared

namespace IsLongestCommonPrefix

variable {α : Type} {shared a b : List α}

theorem nil_left (b : List α) : IsLongestCommonPrefix [] [] b :=
  ⟨List.prefix_rfl, List.nil_prefix, fun _ h _ => h⟩

theorem nil_right (a : List α) : IsLongestCommonPrefix [] a [] :=
  ⟨List.nil_prefix, List.prefix_rfl, fun _ _ h => h⟩

theorem of_ne {x y : α} (h : x ≠ y) (a b : List α) :
    IsLongestCommonPrefix [] (x :: a) (y :: b) := by
  refine ⟨List.nil_prefix, List.nil_prefix, fun other hx hy => ?_⟩
  cases other with
  | nil => exact List.prefix_rfl
  | cons z other =>
    obtain ⟨rfl, -⟩ := List.cons_prefix_cons.mp hx
    exact absurd (List.cons_prefix_cons.mp hy).1 h

theorem cons (h : IsLongestCommonPrefix shared a b) (x : α) :
    IsLongestCommonPrefix (x :: shared) (x :: a) (x :: b) := by
  refine ⟨List.cons_prefix_cons.mpr ⟨rfl, h.left⟩, List.cons_prefix_cons.mpr ⟨rfl, h.right⟩, ?_⟩
  intro other hleft hright
  cases other with
  | nil => exact List.nil_prefix
  | cons y other =>
    obtain ⟨rfl, ha⟩ := List.cons_prefix_cons.mp hleft
    obtain ⟨-, hb⟩ := List.cons_prefix_cons.mp hright
    exact List.cons_prefix_cons.mpr ⟨rfl, h.longest other ha hb⟩

end IsLongestCommonPrefix

theorem commonLength_splits (target base : List Component) : ∃ shared down up,
    target = shared ++ down ∧ base = shared ++ up ∧ commonLength target base = shared.length ∧
      IsLongestCommonPrefix shared target base := by
  induction target generalizing base with
  | nil => exact ⟨[], [], base, rfl, rfl, rfl, .nil_left base⟩
  | cons part target ih =>
    cases base with
    | nil => exact ⟨[], part :: target, [], rfl, rfl, rfl, .nil_right _⟩
    | cons other base =>
      rw [commonLength]
      by_cases hp : part = other
      · subst hp
        obtain ⟨shared, down, up, rfl, rfl, hlength, hlongest⟩ := ih base
        refine ⟨part :: shared, down, up, rfl, rfl, ?_, hlongest.cons part⟩
        rw [if_pos rfl, hlength, List.length_cons]
      · exact ⟨[], part :: target, other :: base, rfl, rfl, if_neg hp, .of_ne hp target base⟩

section Follow

theorem foldl_follow_down (place : Location) (names : List Text) :
    (names.map Component.child).foldl Component.follow place = place ++ names := by
  induction names generalizing place with
  | nil => simp
  | cons name names ih =>
    rw [List.map_cons, List.foldl_cons, ih, Component.follow, List.append_assoc]
    rfl

theorem foldl_follow_up (place : Location) (names : List Text) :
    (List.replicate names.length Component.parent).foldl Component.follow (place ++ names) =
      place := by
  induction names using List.reverseRecOn with
  | nil => simp
  | append_singleton names name ih =>
    have hup : Component.follow (place ++ (names ++ [name])) .parent = place ++ names := by
      rw [Component.follow, ← List.append_assoc, List.dropLast_concat]
    rw [List.length_append, List.length_singleton, List.replicate_succ, List.foldl_cons, hup, ih]

theorem exists_names {way : List Component} (hw : ∀ part ∈ way, part.IsWay)
    (hn : .parent ∉ way) : ∃ names : List Text, way = names.map .child := by
  induction way with
  | nil => exact ⟨[], rfl⟩
  | cons part way ih =>
    obtain ⟨hpart, hway⟩ := List.forall_mem_cons.mp hw
    rw [List.mem_cons, not_or] at hn
    obtain ⟨names, rfl⟩ := ih hway hn.2
    cases part with
    | root => exact hpart.elim
    | current => exact hpart.elim
    | parent => exact absurd rfl hn.1
    | child name => exact ⟨name :: names, rfl⟩

end Follow

/-- The text of a way from one place to another; a dot for the way from a place to itself. -/
def wayText : List Component → Text
  | [] => ['.']
  | way => renderComponents way

theorem wayText_eq_dot_iff {way : List Component} (h : ∀ part ∈ way, part.IsWay) :
    wayText way = ['.'] ↔ way = [] := by
  cases way with
  | nil => simp [wayText]
  | cons part later =>
    refine ⟨fun hdot => ?_, nofun⟩
    have hway := components_renderComponents h
    rw [show renderComponents (part :: later) = ['.'] from hdot] at hway
    obtain ⟨rfl, -⟩ := List.cons.inj hway
    exact (h _ (.head _)).elim

theorem followPath_wayText {way : List Component} (h : ∀ part ∈ way, part.IsWay)
    (place : Location) : followPath place (wayText way) = way.foldl Component.follow place := by
  cases way with
  | nil => rfl
  | cons part later => rw [followPath, wayText, components_renderComponents h]; simp

/-- The way from a directory to a target: up from what only the directory has, and down what only the
target has. -/
def wayBetween (up down : List Component) : List Component :=
  List.replicate up.length .parent ++ down

theorem isWay_wayBetween {down : List Component} (h : ∀ part ∈ down, part.IsWay)
    (up : List Component) : ∀ part ∈ wayBetween up down, part.IsWay := by
  intro part hp
  rcases List.mem_append.mp hp with hp | hp
  · obtain rfl := List.eq_of_mem_replicate hp
    trivial
  · exact h part hp

theorem Component.IsWay.isStep {part : Component} (h : part.IsWay) : part.isStep = true := by
  cases part with
  | root => exact h.elim
  | current => exact h.elim
  | parent => rfl
  | child name => rfl

theorem relativePath?_eq {target base : Text} {shared down up : List Component}
    (ht : components target = .root :: (shared ++ down))
    (hb : components base = .root :: (shared ++ up))
    (hl : commonLength (shared ++ down) (shared ++ up) = shared.length)
    (hd : ∀ part ∈ down, part.IsWay) :
    relativePath? target base = some (wayText (wayBetween up down)) := by
  have hsteps : down.filter Component.isStep = down :=
    List.filter_eq_self.mpr fun part hp => (hd part hp).isStep
  have hcommon : commonLength (.root :: (shared ++ down)) (.root :: (shared ++ up)) =
      shared.length + 1 := by
    rw [commonLength, if_pos rfl, hl]
  have hparts : relativeParts? (.root :: (shared ++ down)) (.root :: (shared ++ up)) =
      some (wayBetween up down) := by
    simp only [relativeParts?, hcommon, List.drop_succ_cons, List.drop_left, List.map_const',
      hsteps, wayBetween]
  rw [relativePath?, ht, hb, hparts]
  rfl

theorem wayBetween_eq_nil_iff {shared down up : List Component}
    (h : IsLongestCommonPrefix shared (shared ++ down) (shared ++ up)) :
    wayBetween up down = [] ↔ shared ++ down = shared ++ up := by
  constructor
  · intro hempty
    obtain ⟨hup, rfl⟩ := List.append_eq_nil_iff.mp hempty
    obtain rfl := List.eq_nil_of_length_eq_zero ((List.replicate_eq_nil_iff _).mp hup)
    rfl
  · intro hsame
    obtain rfl := List.append_cancel_left hsame
    have hle := (h.longest _ List.prefix_rfl List.prefix_rfl).length_le
    rw [List.length_append] at hle
    obtain rfl : down = [] := List.eq_nil_of_length_eq_zero (by omega)
    rfl

/-- All steps upward are at the front, unless the target has some of its own. -/
theorem components_wayText {down : List Component} (hd : ∀ part ∈ down, part.IsWay)
    (hn : .parent ∉ down) (up : List Component) : ∃ rest, .parent ∉ rest ∧
      components (wayText (wayBetween up down)) = List.replicate up.length .parent ++ rest := by
  have hway := isWay_wayBetween hd up
  cases h : wayBetween up down with
  | nil =>
    obtain ⟨hup, -⟩ := List.append_eq_nil_iff.mp h
    exact ⟨[.current], by decide, by rw [hup]; rfl⟩
  | cons part later =>
    rw [h] at hway
    exact ⟨down, hn, (components_renderComponents hway).trans h.symm⟩

/-- The path of a target relative to a base leads from the base to the target. It is a dot for the
base itself, and it goes up no further than the two have in common. -/
theorem relativePath?_leads {target base : Text} (ht : isAbsolute target = true)
    (hb : isAbsolute base = true) (hn : .parent ∉ components base) :
    ∃ way, relativePath? target base = some way ∧
      followPath (followPath [] base) way = followPath [] target ∧
      (way = ['.'] ↔ components target = components base) ∧
      (.parent ∉ components target → ∃ shared down,
        IsLongestCommonPrefix shared (components target) (components base) ∧
        .parent ∉ down ∧ components way =
          List.replicate ((components base).length - shared.length) .parent ++ down) := by
  obtain ⟨targetWay, htarget, hway⟩ := components_of_isAbsolute ht
  obtain ⟨baseWay, hbase, hbaseWay⟩ := components_of_isAbsolute hb
  rw [hbase, List.mem_cons, not_or] at hn
  obtain ⟨names, hnames⟩ := exists_names hbaseWay hn.2
  obtain ⟨shared, down, up, rfl, hsplit, hlength, hlongest⟩ := commonLength_splits targetWay baseWay
  obtain ⟨sharedNames, upNames, rfl, rfl, rfl⟩ : ∃ sharedNames upNames,
      names = sharedNames ++ upNames ∧ shared = sharedNames.map .child ∧ up = upNames.map .child := by
    rw [hnames] at hsplit
    obtain ⟨a, b, hab, ha, hb⟩ := List.map_eq_append_iff.mp hsplit
    exact ⟨a, b, hab, ha.symm, hb.symm⟩
  subst hsplit
  have hdown : ∀ part ∈ down, part.IsWay := fun part hp => hway part (List.mem_append_right _ hp)
  have hbetween := isWay_wayBetween hdown (upNames.map .child)
  refine ⟨_, relativePath?_eq htarget hbase hlength hdown, ?_, ?_, ?_⟩
  · have hplace : followPath [] base = sharedNames ++ upNames := by
      rw [followPath, hbase, ← List.map_append]
      exact foldl_follow_down [] _
    have hshared : followPath [] target = down.foldl Component.follow sharedNames := by
      rw [followPath, htarget, List.foldl_cons, List.foldl_append, foldl_follow_down]
      rfl
    rw [followPath_wayText hbetween, hplace, hshared, wayBetween, List.foldl_append,
      List.length_map, foldl_follow_up]
  · rw [wayText_eq_dot_iff hbetween, wayBetween_eq_nil_iff hlongest, htarget, hbase,
      List.cons_inj_right]
  · intro hparent
    rw [htarget, List.mem_cons, List.mem_append, not_or, not_or] at hparent
    obtain ⟨rest, hrest, hcomponents⟩ := components_wayText hdown hparent.2.2 (upNames.map .child)
    refine ⟨.root :: sharedNames.map .child, rest, ?_, hrest, ?_⟩
    · rw [htarget, hbase]
      exact hlongest.cons .root
    · rw [hbase, hcomponents]
      simp

/-- The way to a file in the directory next to the base, and to one that is reached through the
directory above. -/
theorem siblingFiles_lead :
    let base := "/p/apps/api".toList
    isAbsolute base = true ∧ .parent ∉ components base ∧
      relativePath? "/p/apps/web/a.ts".toList base = some "../web/a.ts".toList ∧
      (∃ shared down, IsLongestCommonPrefix shared (components "/p/apps/web/a.ts".toList)
        (components base) ∧ .parent ∉ down ∧ components "../web/a.ts".toList =
          List.replicate (4 - shared.length) .parent ++ down) ∧
      relativePath? "/p/apps/api/../../lib".toList base = some "../../lib".toList ∧
      followPath (followPath [] base) "../../lib".toList = [['p'], "lib".toList] ∧
      components "/p/apps/api/../../lib".toList ≠ components base := by
  intro base
  have hb : isAbsolute base = true := by decide
  have hn : .parent ∉ components base := by decide
  have hnext : relativePath? "/p/apps/web/a.ts".toList base = some "../web/a.ts".toList := by
    decide
  have hlib : relativePath? "/p/apps/api/../../lib".toList base = some "../../lib".toList := by
    decide
  have htarget : isAbsolute "/p/apps/web/a.ts".toList = true := by decide
  have hdotted : isAbsolute "/p/apps/api/../../lib".toList = true := by decide
  refine ⟨hb, hn, hnext, ?_, hlib, ?_⟩
  · obtain ⟨way, hway, -, -, hup⟩ := relativePath?_leads htarget hb hn
    obtain rfl := Option.some.inj (hnext.symm.trans hway)
    exact hup (by decide)
  · obtain ⟨way, hway, hleads, hdot, -⟩ := relativePath?_leads hdotted hb hn
    obtain rfl := Option.some.inj (hlib.symm.trans hway)
    exact ⟨hleads, fun hsame => absurd (hdot.mpr hsame) (by decide)⟩

end DirectImports
