import DirectImports.Proofs.CollectedFiles

/-! A project in two places. The files that are collected below two roots are the same, unless one
root lies among installed packages and the other does not. -/

namespace DirectImports

/-- What a walk comes by, known by the names that lead to it from the root. -/
structure ProjectEntry where
  names : List Text
  isFile : Bool
deriving DecidableEq, Repr

namespace ProjectEntry

def visitAt (root : Text) (entry : ProjectEntry) : Visit :=
  ⟨entry.names.foldl joinPath root, entry.isFile⟩

/-- What makes an entry a file to lint, wherever its project is. -/
structure IsLinted (entryGlob : Option Text) (entry : ProjectEntry) : Prop where
  file : entry.isFile = true
  extension : ∃ above name extension, entry.names = above ++ [name] ∧
    HasExtension name extension ∧
      String.ofList extension ∈ ["ts", "tsx", "mts", "cts", "js", "jsx", "mjs", "cjs"]
  outside : "node_modules".toList ∉ entry.names
  within : ∀ part ∈ entryGlob, part <:+: relativePath entry.names

/-- An entry below a directory, or that directory itself. -/
structure IsBelow (entry : ProjectEntry) : Prop where
  named : AreFileNames entry.names
  directory : entry.names = [] → entry.isFile = false

variable {entry : ProjectEntry} (h : entry.IsBelow)
include h

theorem IsBelow.components_visitAt (root : Text) :
    components (entry.visitAt root).path = components root ++ entry.names.map .child :=
  components_foldl_joinPath h.named root

theorem IsBelow.relativeTo?_visitAt (root : Text) :
    relativeTo? root (entry.visitAt root).path = some (relativePath entry.names) := by
  rw [relativeTo?, below?_eq_some_iff.mpr (h.components_visitAt root), Option.map_some,
    renderComponents_names]

/-- A project among installed packages has no file to lint, and in all other places it has the same
ones. -/
theorem IsBelow.isLinted_visitAt_iff {root : Text} {entryGlob : Option Text} :
    DirectImports.IsLinted root entryGlob (entry.visitAt root) ↔
      entry.IsLinted entryGlob ∧ isInPackages root = false := by
  have hpath := h.components_visitAt root
  rw [← Bool.not_eq_true, isInPackages_iff]
  constructor
  · rintro ⟨hfile, ⟨above, name, extension, hlast, hextension⟩, houtside, hwithin⟩
    rw [hpath, List.mem_append, not_or] at houtside
    refine ⟨⟨hfile, ?_, ?_, ?_⟩, houtside.1⟩
    · have hne : entry.names ≠ [] :=
        fun hnone => Bool.false_ne_true ((h.directory hnone).symm.trans hfile)
      obtain ⟨front, last, hnames⟩ := (List.eq_nil_or_concat entry.names).resolve_left hne
      rw [hpath, hnames, List.concat_eq_append, List.map_append, ← List.append_assoc] at hlast
      obtain ⟨-, hname⟩ := List.append_inj' hlast rfl
      obtain rfl : last = name := by simpa using hname
      exact ⟨front, last, extension, hnames.trans List.concat_eq_append, hextension⟩
    · exact fun hm => houtside.2 (List.mem_map_of_mem hm)
    · intro part hp
      obtain ⟨below, hbelow, hpart⟩ := hwithin part hp
      rw [hpath] at hbelow
      obtain rfl := List.append_cancel_left hbelow
      rwa [renderComponents_names] at hpart
  · rintro ⟨⟨hfile, ⟨above, name, extension, hnames, hextension⟩, houtside, hwithin⟩, hroot⟩
    refine ⟨hfile, ⟨components root ++ above.map .child, name, extension, ?_, hextension⟩, ?_, ?_⟩
    · rw [hpath, hnames, List.map_append, List.append_assoc]
      rfl
    · rw [hpath, List.mem_append, not_or]
      refine ⟨hroot, fun hm => ?_⟩
      obtain ⟨name, hn, hname⟩ := List.mem_map.mp hm
      exact houtside (Component.child.inj hname ▸ hn)
    · intro part hp
      exact ⟨_, hpath, by rw [renderComponents_names]; exact hwithin part hp⟩

end ProjectEntry

/-- The entries of a directory, each once. -/
structure AreEntries (entries : List ProjectEntry) : Prop where
  below : ∀ entry ∈ entries, entry.IsBelow
  distinct : (entries.map ProjectEntry.names).Nodup

/-- A walk from a root comes by some entries, in whatever order. -/
def YieldsAt (root : Text) (entries : List ProjectEntry) (walk : List (Except Failure Visit)) :
    Prop :=
  walk.Perm (entries.map fun entry => .ok (entry.visitAt root))

section Places

variable {entries : List ProjectEntry} {root other : Text} {walk walk' : List (Except Failure Visit)}
  {entryGlob : Option Text}

theorem AreEntries.visits_distinct (h : AreEntries entries) (root : Text) :
    ((entries.map (ProjectEntry.visitAt root)).map fun visit => components visit.path).Nodup := by
  have hpaths : (entries.map (ProjectEntry.visitAt root)).map (fun visit => components visit.path) =
      (entries.map ProjectEntry.names).map fun names => components root ++ names.map .child := by
    rw [List.map_map, List.map_map]
    exact List.map_congr_left fun entry hm => (h.below entry hm).components_visitAt root
  rw [hpaths]
  refine h.distinct.map fun a b hab => ?_
  exact List.map_inj_right (fun _ _ h => Component.child.inj h) |>.mp (List.append_cancel_left hab)

theorem collectFrom_of_yields (he : AreEntries entries) (hw : YieldsAt root entries walk) :
    collectFrom root entryGlob walk =
      .ok (filesOf root entryGlob (entries.map (ProjectEntry.visitAt root))) := by
  have hvisits : (entries.map fun entry => (.ok (entry.visitAt root) : Except Failure Visit)) =
      (entries.map (ProjectEntry.visitAt root)).map .ok := by
    rw [List.map_map]
    rfl
  have hnone : ∀ failure, .error failure ∉ walk := by
    intro failure hm
    obtain ⟨entry, -, hentry⟩ := List.mem_map.mp (hw.subset hm)
    cases hentry
  have hperm : (walk.filterMap Except.toOption).Perm (entries.map (ProjectEntry.visitAt root)) := by
    have hfound := hw.filterMap Except.toOption
    rw [hvisits, List.filterMap_map] at hfound
    exact hfound.trans (.of_eq List.filterMap_some)
  rw [collectFrom_of_ok hnone, filesOf_perm (he.visits_distinct root) hperm.symm]

theorem componentsPrecede_append (front a b : List Component) :
    componentsPrecede (front ++ a) (front ++ b) = componentsPrecede a b := by
  induction front with
  | nil => rfl
  | cons part front ih => rw [List.cons_append, List.cons_append, componentsPrecede, if_pos rfl, ih]

/-- The entries to lint that are found at a root, by their names and in the order of these. -/
def lintedNames (root : Text) (entryGlob : Option Text) (entries : List ProjectEntry) :
    List (List Text) :=
  ((entries.filter fun entry => isCollected root entryGlob (entry.visitAt root)).map
    ProjectEntry.names).mergeSort fun a b =>
      componentsPrecede (a.map Component.child) (b.map Component.child)

theorem exists_of_mem_lintedNames {names : List Text}
    (h : names ∈ lintedNames root entryGlob entries) : ∃ entry ∈ entries, entry.names = names := by
  obtain ⟨entry, hm, hnames⟩ := List.mem_map.mp ((List.mergeSort_perm _ _).subset h)
  exact ⟨entry, List.mem_of_mem_filter hm, hnames⟩

/-- The order of the paths at a root is the order of the names below it. -/
theorem filesOf_visitAt (he : AreEntries entries) :
    filesOf root entryGlob (entries.map (ProjectEntry.visitAt root)) =
      (lintedNames root entryGlob entries).map fun names => names.foldl joinPath root := by
  rw [lintedNames, List.map_mergeSort, filesOf, List.filter_map, List.map_map, List.map_map]
  · rfl
  · intro a ha b hb
    obtain ⟨first, hfirst, rfl⟩ := List.mem_map.mp ha
    obtain ⟨second, hsecond, rfl⟩ := List.mem_map.mp hb
    have hfirst' := he.below first (List.mem_of_mem_filter hfirst)
    have hsecond' := he.below second (List.mem_of_mem_filter hsecond)
    rw [pathPrecedes, components_foldl_joinPath hfirst'.named,
      components_foldl_joinPath hsecond'.named, componentsPrecede_append]

theorem relativeTo?_filesOf (he : AreEntries entries) :
    (filesOf root entryGlob (entries.map (ProjectEntry.visitAt root))).map (relativeTo? root) =
      (lintedNames root entryGlob entries).map fun names => some (relativePath names) := by
  rw [filesOf_visitAt he, List.map_map]
  refine List.map_congr_left fun names hm => ?_
  obtain ⟨entry, hentry, rfl⟩ := exists_of_mem_lintedNames hm
  exact (he.below entry hentry).relativeTo?_visitAt root

theorem lintedNames_eq_nil_iff (he : AreEntries entries) : lintedNames root entryGlob entries = [] ↔
    isInPackages root = true ∨ ∀ entry ∈ entries, ¬entry.IsLinted entryGlob := by
  have hsorted : (lintedNames root entryGlob entries).Perm _ := List.mergeSort_perm _ _
  rw [← List.perm_nil, hsorted.congr_left, List.perm_nil, List.map_eq_nil_iff,
    List.filter_eq_nil_iff]
  have heach : ∀ entry ∈ entries, (¬isCollected root entryGlob (entry.visitAt root) = true ↔
      isInPackages root = true ∨ ¬entry.IsLinted entryGlob) := by
    intro entry hm
    rw [isCollected_iff, (he.below entry hm).isLinted_visitAt_iff, not_and_or, Bool.not_eq_false,
      or_comm]
  simp only [forall₂_congr heach, forall_or_left]

/-- Of the place of a project it matters only whether it is among installed packages. -/
theorem lintedNames_congr (he : AreEntries entries) (h : isInPackages root = isInPackages other) :
    lintedNames root entryGlob entries = lintedNames other entryGlob entries := by
  have hsame : entries.filter (fun entry => isCollected root entryGlob (entry.visitAt root)) =
      entries.filter fun entry => isCollected other entryGlob (entry.visitAt other) := by
    refine List.filter_congr fun entry hm => Bool.eq_iff_iff.mpr ?_
    have hbelow := he.below entry hm
    rw [isCollected_iff, isCollected_iff, hbelow.isLinted_visitAt_iff, hbelow.isLinted_visitAt_iff, h]
  rw [lintedNames, hsame]
  rfl

theorem collectFrom_relocated_iff (he : AreEntries entries) (hw : YieldsAt root entries walk)
    (hw' : YieldsAt other entries walk') (entryGlob : Option Text) :
    ∃ files files', collectFrom root entryGlob walk = .ok files ∧
      collectFrom other entryGlob walk' = .ok files' ∧
      (files.map (relativeTo? root) = files'.map (relativeTo? other) ↔
        isInPackages root = isInPackages other ∨
          ∀ entry ∈ entries, ¬entry.IsLinted entryGlob) := by
  refine ⟨_, _, collectFrom_of_yields he hw, collectFrom_of_yields he hw', ?_⟩
  rw [relativeTo?_filesOf he, relativeTo?_filesOf he]
  constructor
  · intro hsame
    -- The lists are as long as each other, so they are empty together.
    have hempty : lintedNames root entryGlob entries = [] ↔
        lintedNames other entryGlob entries = [] := by
      have hlength := congrArg List.length hsame
      rw [List.length_map, List.length_map] at hlength
      rw [← List.length_eq_zero_iff, hlength, List.length_eq_zero_iff]
    rw [lintedNames_eq_nil_iff he, lintedNames_eq_nil_iff he] at hempty
    by_cases hnone : ∀ entry ∈ entries, ¬entry.IsLinted entryGlob
    · exact .inr hnone
    · rw [or_iff_left hnone, or_iff_left hnone] at hempty
      exact .inl (Bool.eq_iff_iff.mpr hempty)
  · rintro (hplace | hnone)
    · rw [lintedNames_congr he hplace]
    · rw [(lintedNames_eq_nil_iff he).mpr (.inr hnone), (lintedNames_eq_nil_iff he).mpr (.inr hnone)]

end Places

/-- A project in three places, one of them among installed packages. -/
def copiedProject : FileSystem where
  entries := [([['a']], .directory), ([['a'], "x.ts".toList], .file (.torn [])),
    ([['b']], .directory), ([['b'], ['a']], .directory),
    ([['b'], ['a'], "x.ts".toList], .file (.torn [])), ([packages], .directory),
    ([packages, ['a']], .directory), ([packages, ['a'], "x.ts".toList], .file (.torn []))]
  currentDirectory := none
where
  packages := "node_modules".toList

def copiedEntries : List ProjectEntry :=
  [⟨[], false⟩, ⟨["x.ts".toList], true⟩]

theorem copiedEntries_areEntries : AreEntries copiedEntries where
  below entry hm := by
    obtain rfl | rfl : entry = ⟨[], false⟩ ∨ entry = ⟨["x.ts".toList], true⟩ := by
      simpa [copiedEntries] using hm
    · exact ⟨nofun, fun _ => rfl⟩
    · refine ⟨fun name hn => ?_, nofun⟩
      obtain rfl := List.mem_singleton.mp hn
      exact ⟨by decide, by decide, by decide, by decide⟩
  distinct := by decide

theorem copiedProject_yields : ∀ root ∈ ["/a", "/b/a", "/node_modules/a"].map String.toList,
    YieldsAt root copiedEntries (copiedProject.walk root) := by
  unfold YieldsAt
  decide +kernel

theorem collectFiles_copiedProject (root : Text)
    (h : root ∈ ["/a", "/b/a", "/node_modules/a"].map String.toList) :
    collectFiles copiedProject root none =
      .ok ((lintedNames root none copiedEntries).map fun names => names.foldl joinPath root) := by
  rw [collectFiles, collectFrom_of_yields copiedEntries_areEntries (copiedProject_yields root h),
    filesOf_visitAt copiedEntries_areEntries]

theorem lintedNames_copiedEntries {root : Text} (h : isInPackages root = false) :
    lintedNames root none copiedEntries = [["x.ts".toList]] := by
  have hplace : isInPackages root = isInPackages ['/'] := h.trans (by decide +kernel)
  rw [lintedNames_congr copiedEntries_areEntries hplace, lintedNames]
  exact List.mergeSort_of_pairwise (by decide +kernel)

/-- Two places that are both outside installed packages have the same files. -/
theorem copiedProject_relocated : ∃ files files',
    collectFiles copiedProject ['/', 'a'] none = .ok files ∧
    collectFiles copiedProject ['/', 'b', '/', 'a'] none = .ok files' ∧
    files.map (relativeTo? ['/', 'a']) = files'.map (relativeTo? ['/', 'b', '/', 'a']) ∧
    files ≠ [] := by
  have hplace : isInPackages ['/', 'a'] = isInPackages ['/', 'b', '/', 'a'] := by
    decide +kernel
  obtain ⟨files, files', hfiles, hfiles', hsame⟩ := collectFrom_relocated_iff
    copiedEntries_areEntries (copiedProject_yields ['/', 'a'] (by decide))
    (copiedProject_yields ['/', 'b', '/', 'a'] (by decide)) none
  refine ⟨files, files', hfiles, hfiles', hsame.mpr (.inl hplace), ?_⟩
  have hcollect := collectFiles_copiedProject ['/', 'a'] (by decide)
  rw [lintedNames_copiedEntries (by decide +kernel)] at hcollect
  obtain rfl := Except.ok.inj (hfiles.symm.trans hcollect)
  exact List.cons_ne_nil _ _

/-- The copy among installed packages loses its file. -/
theorem copiedProject_lost :
    YieldsAt ['/', 'a'] copiedEntries (copiedProject.walk ['/', 'a']) ∧
    YieldsAt "/node_modules/a".toList copiedEntries
      (copiedProject.walk "/node_modules/a".toList) ∧
    collectFiles copiedProject ['/', 'a'] none = .ok ["/a/x.ts".toList] ∧
    relativeTo? ['/', 'a'] "/a/x.ts".toList = some "x.ts".toList ∧
    collectFiles copiedProject "/node_modules/a".toList none = .ok [] := by
  refine ⟨copiedProject_yields _ (by decide), copiedProject_yields _ (by decide), ?_, ?_, ?_⟩
  · rw [collectFiles_copiedProject _ (by decide), lintedNames_copiedEntries (by decide +kernel)]
    rfl
  · decide +kernel
  · rw [collectFiles_copiedProject _ (by decide),
      (lintedNames_eq_nil_iff copiedEntries_areEntries).mpr (.inl (by decide +kernel))]
    rfl

end DirectImports
