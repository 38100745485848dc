import DirectImports.Configuration
import DirectImports.Collection
import DirectImports.Proofs.FileTree

/-! The files of a project. Whatever root is asked for, the collected files are distinct names of
files in the directory that it stands for, or of that file itself. -/

namespace DirectImports

open FileSystem

/-- Distinct paths of files, each with the names that lead to it from a location. -/
structure AreProjectFiles (system : FileSystem) (base : Location) (files : List Text) : Prop where
  distinct : files.Nodup
  file : ∀ file ∈ files, ∃ names, file = absolutePath (base ++ names) ∧
    system.NamesFile (base ++ names)

theorem mapM_id_eq_ok {walk : List (Except Failure Visit)} {visits : List Visit}
    (h : walk.mapM id = .ok visits) : walk = visits.map .ok := by
  induction walk generalizing visits with
  | nil =>
    obtain rfl := Except.ok.inj h
    rfl
  | cons visit walk ih =>
    rw [List.mapM_cons] at h
    obtain ⟨first, hfirst, hrest⟩ := except_bind_eq_ok.mp h
    obtain ⟨later, hlater, hrest⟩ := except_bind_eq_ok.mp hrest
    obtain rfl := Except.ok.inj hrest
    obtain rfl : visit = .ok first := hfirst
    rw [ih hlater, List.map_cons]

theorem collectFiles_eq_ok {system : FileSystem} {root : Text} {entryGlob : Option Text}
    {files : List Text} (h : collectFiles system root entryGlob = .ok files) :
    ∃ visits : List Visit, system.walk root = visits.map .ok ∧
      files.Perm ((visits.filter (isCollected root entryGlob)).map Visit.path) := by
  obtain ⟨visits, hw, h⟩ := except_bind_eq_ok.mp h
  obtain rfl := Except.ok.inj h
  exact ⟨visits, mapM_id_eq_ok hw, List.mergeSort_perm _ _⟩

theorem isFile_of_isCollected {root : Text} {entryGlob : Option Text} {visit : Visit}
    (h : isCollected root entryGlob visit = true) : visit.isFile = true := by
  simp only [isCollected, Bool.and_eq_true] at h
  exact h.1.1.1

/-- The visit of what lies below a location. -/
def visitBelow (system : FileSystem) (base : Location) (below : List Text × Entry) : Visit :=
  ⟨absolutePath (base ++ below.1), system.isFileEntry below.2⟩

namespace FileSystem.IsTree

variable {system : FileSystem}

theorem mem_entriesBelow {base : Location} {names : List Text} {entry : Entry}
    (h : (names, entry) ∈ system.entriesBelow base) :
    (base ++ names, entry) ∈ system.entries ∧ names ≠ [] := by
  obtain ⟨⟨location, found⟩, hm, hf⟩ := List.mem_filterMap.mp h
  obtain ⟨⟨hbegins, hlength⟩, hf⟩ := Option.ite_none_right_eq_some.mp hf
  obtain ⟨rfl, rfl⟩ := Prod.mk.inj (Option.some.inj hf)
  obtain ⟨below, rfl⟩ := List.isPrefixOf_iff_prefix.mp hbegins
  rw [List.drop_left]
  refine ⟨hm, ?_⟩
  rintro rfl
  simp at hlength

theorem entriesBelow_distinct (ht : system.IsTree) (base : Location) :
    ((system.entriesBelow base).map fun below => base ++ below.1).Nodup := by
  rw [entriesBelow, List.Nodup, List.pairwise_map, List.pairwise_filterMap]
  refine (List.pairwise_map.mp ht.distinct).imp ?_
  rintro ⟨a, _⟩ ⟨b, _⟩ hne first hfirst second hsecond
  obtain ⟨⟨ha, -⟩, hfirst⟩ := Option.ite_none_right_eq_some.mp hfirst
  obtain ⟨⟨hb, -⟩, hsecond⟩ := Option.ite_none_right_eq_some.mp hsecond
  obtain ⟨below, rfl⟩ := List.isPrefixOf_iff_prefix.mp ha
  obtain ⟨below', rfl⟩ := List.isPrefixOf_iff_prefix.mp hb
  rw [← Option.some.inj hfirst, ← Option.some.inj hsecond]
  simpa using hne

theorem below_distinct (ht : system.IsTree) (base : Location)
    (kept : List (List Text × Entry)) (hk : kept.Sublist (system.entriesBelow base)) :
    (kept.map fun below => absolutePath (base ++ below.1)).Nodup := by
  have hlocations := (ht.entriesBelow_distinct base).sublist (hk.map _)
  have hpaths : (kept.map fun below => absolutePath (base ++ below.1)) =
      (kept.map fun below => base ++ below.1).map absolutePath := by
    rw [List.map_map]
    rfl
  rw [hpaths]
  refine hlocations.map_on ?_
  have hnames : ∀ location ∈ kept.map (fun below => base ++ below.1), AreFileNames location := by
    intro location hl
    obtain ⟨⟨names, entry⟩, hm, rfl⟩ := List.mem_map.mp hl
    exact ht.names _ (mem_entriesBelow (hk.subset hm)).1
  exact fun a ha b hb => absolutePath_injective (hnames a ha) (hnames b hb)

theorem walk_absolutePath (ht : system.IsTree) {base : Location}
    (hb : system.follow? base = some base) :
    (system.NamesFile base ∧ system.walk (absolutePath base) = [.ok ⟨absolutePath base, true⟩]) ∨
    ∃ reports, ∃ kept : List (List Text × Entry), reports.filterMap Except.toOption = [] ∧
      kept.Sublist (system.entriesBelow base) ∧
      system.walk (absolutePath base) = reports ++ .ok ⟨absolutePath base, false⟩ ::
        kept.map fun below => .ok (visitBelow system base below) := by
  obtain ⟨hsome, -, hentry⟩ := follow?_spec hb
  have hdash : absolutePath base ≠ ['-'] := by
    intro hdash
    have habsolute := isAbsolute_absolutePath base
    rw [hdash] at habsolute
    cases habsolute
  rw [walk, if_neg hdash, ht.locate_absolutePath hb]
  rcases hentry with hd | ⟨content, hs⟩
  case inr =>
    have hfile : system.isFile (absolutePath base) = true := by
      rw [isFile, ht.lookup_absolutePath hb hs]
    simp only [hfile, if_true]
    exact .inl ⟨⟨base, content, hb, hs⟩, trivial⟩
  case inl =>
    have hfile : system.isFile (absolutePath base) = false := by
      rw [isFile, ht.lookup_absolutePath hb hd]
    simp only [hfile, Bool.false_eq_true, if_false]
    have hvisits (reached : List Text × Entry → Bool) :
        (((system.entriesBelow base).filter reached).map fun below =>
          (.ok ⟨below.1.foldl joinPath (absolutePath base), system.isFileEntry below.2⟩ :
            Except Failure Visit)) =
          ((system.entriesBelow base).filter reached).map fun below =>
            .ok (visitBelow system base below) := by
      refine List.map_congr_left fun below hm => ?_
      have hnames := ht.names _ (mem_entriesBelow (List.mem_of_mem_filter hm)).1
      rw [visitBelow, foldl_joinPath (ht.areFileNames hsome) hnames.of_append.2]
    rw [hvisits]
    refine .inr ⟨_, _, ?_, ?_, rfl⟩
    · split
      · rfl
      · rfl
    · exact List.filter_sublist

/-- What a walk comes by: the files are distinct, and their paths begin with the root. -/
theorem walk_files (ht : system.IsTree) {base : Location} {visits : List Visit}
    (hb : system.follow? base = some base)
    (h : system.walk (absolutePath base) = visits.map .ok) :
    AreProjectFiles system base ((visits.filter Visit.isFile).map Visit.path) := by
  have hvisits : visits = (system.walk (absolutePath base)).filterMap Except.toOption := by
    rw [h, List.filterMap_map]
    exact List.filterMap_some.symm
  subst hvisits
  rcases ht.walk_absolutePath hb with ⟨hs, hw⟩ | ⟨reports, kept, hr, hk, hw⟩
  · rw [hw]
    refine ⟨List.nodup_singleton _, List.forall_mem_singleton.mpr ⟨[], ?_⟩⟩
    rw [List.append_nil]
    exact ⟨rfl, hs⟩
  · have hfiles : (((system.walk (absolutePath base)).filterMap Except.toOption).filter
        Visit.isFile).map Visit.path =
          (kept.filter fun below => system.isFileEntry below.2).map fun below =>
            absolutePath (base ++ below.1) := by
      have hstart : (.ok ⟨absolutePath base, false⟩ : Except Failure Visit).toOption =
        some ⟨absolutePath base, false⟩ := rfl
      have hkept : (kept.map fun below =>
          (.ok (visitBelow system base below) : Except Failure Visit)).filterMap
            Except.toOption = kept.map (visitBelow system base) := by
        rw [List.filterMap_map]
        exact congrFun List.filterMap_eq_map' kept
      rw [hw, List.filterMap_append, hr, List.nil_append, List.filterMap_cons_some hstart, hkept,
        List.filter_cons_of_neg (by simp), List.filter_map, List.map_map]
      rfl
    rw [hfiles]
    refine ⟨ht.below_distinct base _ (List.filter_sublist.trans hk), ?_⟩
    intro file hfile
    obtain ⟨⟨names, entry⟩, hm, rfl⟩ := List.mem_map.mp hfile
    obtain ⟨hm, hentry⟩ := List.mem_filter.mp hm
    obtain ⟨hm, hne⟩ := mem_entriesBelow (hk.subset hm)
    have hfound := ht.entry?_of_mem (by simp [hne]) hm
    exact ⟨names, rfl, (isFileEntry_iff hfound).mp hentry⟩

theorem repositoryRoot_found (ht : system.IsTree) {root : Text}
    (h : system.repositoryRoot = .ok root) :
    ∃ base, root = absolutePath base ∧ system.follow? base = some base := by
  unfold repositoryRoot at h
  split at h
  next => cases h
  next here hc =>
    simp only at h
    split at h
    next location hl =>
      obtain rfl := Except.ok.inj h
      have hleads : (system.follow? (location ++ [".git".toList])).isSome := by
        simpa using List.find?_some hl
      obtain ⟨repository, hf⟩ := Option.isSome_iff_exists.mp hleads
      exact ⟨location, rfl, follow?_of_directory (ht.above location _ (follow?_spec hf).1)⟩
    next => cases h

/-- A root either stands for something or leads nowhere. -/
theorem findRoot_cases (ht : system.IsTree) {configuration : Configuration} {root : Text}
    (h : configuration.findRoot system = .ok root) :
    (∃ base, root = absolutePath base ∧ system.follow? base = some base) ∨
      ∃ error, system.locate root = .error error := by
  unfold Configuration.findRoot at h
  split at h
  next given hg =>
    obtain rfl := Except.ok.inj h
    unfold canonicalPath?
    cases hl : system.locate given with
    | error error => exact .inr ⟨error, hl⟩
    | ok base => exact .inl ⟨base, rfl, ht.locate_found hl⟩
  next => exact .inl (ht.repositoryRoot_found h)

/-- The files of a project have distinct paths in or at its root. -/
theorem areProjectFiles (ht : system.IsTree) {configuration : Configuration} {root : Text}
    {entryGlob : Option Text} {files : List Text} (hr : configuration.findRoot system = .ok root)
    (hf : collectFiles system root entryGlob = .ok files) (hne : files ≠ []) :
    ∃ base, root = absolutePath base ∧ system.follow? base = some base ∧
      AreProjectFiles system base files := by
  obtain ⟨visits, hw, hp⟩ := collectFiles_eq_ok hf
  rcases ht.findRoot_cases hr with ⟨base, rfl, hb⟩ | ⟨error, hl⟩
  · refine ⟨base, rfl, hb, ?_⟩
    have hvisited := ht.walk_files hb hw
    have hsublist : ((visits.filter (isCollected (absolutePath base) entryGlob)).map
        Visit.path).Sublist ((visits.filter Visit.isFile).map Visit.path) :=
      (List.monotone_filter_right _ fun _ => isFile_of_isCollected).map _
    exact ⟨hp.nodup_iff.mpr (hvisited.distinct.sublist hsublist),
      fun file hm => hvisited.file file (hsublist.subset (hp.subset hm))⟩
  · -- Nothing is collected of the standard input, and no other missing root can be walked.
    exfalso
    rw [walk, hl] at hw
    split at hw
    · obtain rfl : visits = [] := by simpa using hw.symm
      exact hne hp.eq_nil
    · cases visits with
      | nil => cases hw
      | cons visit visits => cases (List.cons.inj hw).1

end FileSystem.IsTree

end DirectImports
