import Mathlib.Data.List.TakeWhile
import DirectImports.Proofs.ByteOrder
import DirectImports.Proofs.PathComponents
import DirectImports.Proofs.ProjectFiles
import DirectImports.Proofs.Substitution

/-! The files that are collected of a walk. They are the visits that meet all conditions, in the order
of their paths, so that the order of the walk does not matter. -/

namespace DirectImports

/-- A name ends in a dot and an extension, and something stands before this dot. -/
def HasExtension (name extension : Text) : Prop :=
  ∃ stem, stem ≠ [] ∧ name = stem ++ '.' :: extension ∧ '.' ∉ extension

theorem extensionOf?_without {name : Text} (h : '.' ∉ name) : extensionOf? name = none := by
  have hall : name.reverse.dropWhile (· ≠ '.') = [] := by
    rw [List.dropWhile_eq_nil_iff]
    rintro c hc
    simpa using fun hdot : c = '.' => h (hdot ▸ List.mem_reverse.mp hc)
  rw [extensionOf?, List.span_eq_takeWhile_dropWhile, hall]

theorem extensionOf?_append {extension : Text} (h : '.' ∉ extension) (stem : Text) :
    extensionOf? (stem ++ '.' :: extension) = if stem = [] then none else some extension := by
  have hreverse : (stem ++ '.' :: extension).reverse =
      extension.reverse ++ '.' :: stem.reverse := by
    simp
  have hfront : ∀ c ∈ extension.reverse, decide (c ≠ '.') = true := by
    rintro c hc
    simpa using fun hdot : c = '.' => h (hdot ▸ List.mem_reverse.mp hc)
  rw [extensionOf?, List.span_eq_takeWhile_dropWhile, hreverse,
    List.takeWhile_append_of_pos hfront, List.dropWhile_append_of_pos hfront]
  cases hs : stem.reverse with
  | nil =>
    rw [List.reverse_eq_nil_iff.mp hs]
    simp
  | cons c rest =>
    have hne : stem ≠ [] := by
      rintro rfl
      cases hs
    simp [hne]

theorem extensionOf?_eq_some_iff {name extension : Text} :
    extensionOf? name = some extension ↔ HasExtension name extension := by
  constructor
  · intro h
    by_cases hdot : '.' ∈ name
    · -- The last dot is the first one from the back.
      obtain ⟨front, back, hname, hfront⟩ :=
        List.eq_append_cons_of_mem (List.mem_reverse.mpr hdot)
      obtain rfl : name = back.reverse ++ '.' :: front.reverse := by
        rw [← List.reverse_reverse name, hname]
        simp
      have hfront' : '.' ∉ front.reverse := by simpa using hfront
      rw [extensionOf?_append hfront'] at h
      obtain ⟨hstem, h⟩ := Option.ite_none_left_eq_some.mp h
      obtain rfl := Option.some.inj h
      exact ⟨back.reverse, hstem, rfl, hfront'⟩
    · rw [extensionOf?_without hdot] at h
      cases h
  · rintro ⟨stem, hstem, rfl, hdot⟩
    rw [extensionOf?_append hdot, if_neg hstem]

/-- What makes a visit of a walk a file to lint. -/
structure IsLinted (root : Text) (entryGlob : Option Text) (visit : Visit) : Prop where
  file : visit.isFile = true
  extension : ∃ above name extension, components visit.path = above ++ [.child name] ∧
    HasExtension name extension ∧
      String.ofList extension ∈ ["ts", "tsx", "mts", "cts", "js", "jsx", "mjs", "cjs"]
  outside : .child "node_modules".toList ∉ components visit.path
  within : ∀ part ∈ entryGlob, ∃ below, components visit.path = components root ++ below ∧
    part <:+: renderComponents below

theorem fileName?_eq_some_iff {path name : Text} :
    fileName? path = some name ↔ ∃ above, components path = above ++ [.child name] := by
  rw [← List.getLast?_eq_some_iff, fileName?]
  split
  next found hlast => rw [hlast]; simp
  next hother => exact ⟨nofun, fun h => absurd h (hother name)⟩

theorem mem_sourceExtensions_iff {extension : Text} : extension ∈ sourceExtensions ↔
    String.ofList extension ∈ ["ts", "tsx", "mts", "cts", "js", "jsx", "mjs", "cjs"] := by
  rw [sourceExtensions, List.mem_map]
  constructor
  · rintro ⟨text, ht, rfl⟩
    rwa [String.ofList_toList]
  · exact fun h => ⟨_, h, String.toList_ofList⟩

theorem hasSourceExtension_iff {path : Text} : hasSourceExtension path = true ↔
    ∃ above name extension, components path = above ++ [.child name] ∧
      HasExtension name extension ∧
        String.ofList extension ∈ ["ts", "tsx", "mts", "cts", "js", "jsx", "mjs", "cjs"] := by
  rw [hasSourceExtension, Option.any_eq_true]
  constructor
  · rintro ⟨extension, hfound, hsource⟩
    obtain ⟨name, hname, hextension⟩ := Option.bind_eq_some_iff.mp hfound
    obtain ⟨above, hpath⟩ := fileName?_eq_some_iff.mp hname
    exact ⟨above, name, extension, hpath, extensionOf?_eq_some_iff.mp hextension,
      mem_sourceExtensions_iff.mp (List.contains_iff_mem.mp hsource)⟩
  · rintro ⟨above, name, extension, hpath, hextension, hsource⟩
    refine ⟨extension, ?_, List.contains_iff_mem.mpr (mem_sourceExtensions_iff.mpr hsource)⟩
    exact Option.bind_eq_some_iff.mpr ⟨name, fileName?_eq_some_iff.mpr ⟨above, hpath⟩,
      extensionOf?_eq_some_iff.mpr hextension⟩

theorem isInPackages_iff {path : Text} :
    isInPackages path = true ↔ .child "node_modules".toList ∈ components path :=
  List.contains_iff_mem

theorem below?_eq_some_iff {base path below : List Component} :
    below? base path = some below ↔ path = base ++ below := by
  rw [below?, Option.ite_none_right_eq_some, List.isPrefixOf_iff_prefix]
  constructor
  · rintro ⟨hbegins, h⟩
    rw [← Option.some.inj h]
    exact (List.prefix_iff_eq_append.mp hbegins).symm
  · rintro rfl
    exact ⟨List.prefix_append _ _, by rw [List.drop_left]⟩

theorem isWithin_iff {root path part : Text} : isWithin root path part = true ↔
    ∃ below, components path = components root ++ below ∧ part <:+: renderComponents below := by
  rw [isWithin, Option.any_eq_true]
  constructor
  · rintro ⟨relative, hfound, hpart⟩
    obtain ⟨below, hbelow, rfl⟩ := Option.map_eq_some_iff.mp hfound
    exact ⟨below, below?_eq_some_iff.mp hbelow, contains_iff.mp hpart⟩
  · rintro ⟨below, hbelow, hpart⟩
    refine ⟨renderComponents below, ?_, contains_iff.mpr hpart⟩
    exact Option.map_eq_some_iff.mpr ⟨below, below?_eq_some_iff.mpr hbelow, rfl⟩

theorem isCollected_iff {root : Text} {entryGlob : Option Text} {visit : Visit} :
    isCollected root entryGlob visit = true ↔ IsLinted root entryGlob visit := by
  rw [isCollected, Bool.and_eq_true, Bool.and_eq_true, Bool.and_eq_true, Bool.not_eq_true',
    ← Bool.not_eq_true, hasSourceExtension_iff, isInPackages_iff, Option.all_eq_true]
  constructor
  · rintro ⟨⟨⟨hfile, hextension⟩, houtside⟩, hwithin⟩
    exact ⟨hfile, hextension, houtside, fun part hp => isWithin_iff.mp (hwithin part hp)⟩
  · rintro ⟨hfile, hextension, houtside, hwithin⟩
    exact ⟨⟨⟨hfile, hextension⟩, houtside⟩, fun part hp => isWithin_iff.mpr (hwithin part hp)⟩

/-- A walk comes by every path once. Two paths are the same if their components are. -/
def VisitsOnce (walk : List (Except Failure Visit)) : Prop :=
  ((walk.filterMap Except.toOption).map fun visit => components visit.path).Nodup

/-- The files to lint among some visits, in the order of their paths. -/
def filesOf (root : Text) (entryGlob : Option Text) (visits : List Visit) : List Text :=
  ((visits.filter (isCollected root entryGlob)).map Visit.path).mergeSort pathPrecedes

section Files

variable {root : Text} {entryGlob : Option Text} {visits : List Visit}

theorem mem_filesOf_iff {path : Text} : path ∈ filesOf root entryGlob visits ↔
    ∃ visit ∈ visits, IsLinted root entryGlob visit ∧ visit.path = path := by
  have hsorted : (filesOf root entryGlob visits).Perm _ := List.mergeSort_perm _ _
  rw [hsorted.mem_iff, List.mem_map]
  simp only [List.mem_filter, isCollected_iff, and_assoc]

theorem filesOf_strict (hd : (visits.map fun visit => components visit.path).Nodup) :
    (filesOf root entryGlob visits).Pairwise PathIsBefore := by
  have hsorted : (filesOf root entryGlob visits).Pairwise fun a b => pathPrecedes a b = true :=
    List.pairwise_mergeSort pathPrecedes_trans pathPrecedes_total _
  have hperm : (filesOf root entryGlob visits).Perm _ := List.mergeSort_perm _ _
  have hdistinct : (filesOf root entryGlob visits).Pairwise fun a b =>
      components a ≠ components b := by
    rw [← List.pairwise_map, ← List.Nodup, (hperm.map components).nodup_iff, List.map_map]
    exact hd.sublist (List.filter_sublist.map _)
  exact hsorted.imp₂ (fun a b hab hne => pathIsBefore_iff.mpr ⟨hab, hne⟩) hdistinct

theorem filesOf_perm {others : List Visit}
    (hd : (visits.map fun visit => components visit.path).Nodup) (hp : visits.Perm others) :
    filesOf root entryGlob others = filesOf root entryGlob visits := by
  have hd' := (hp.map fun visit => components visit.path).nodup_iff.mp hd
  have hfiles : (filesOf root entryGlob others).Perm (filesOf root entryGlob visits) :=
    (List.mergeSort_perm _ _).trans
      (((hp.symm.filter _).map _).trans (List.mergeSort_perm _ _).symm)
  refine hfiles.eq_of_pairwise ?_ (filesOf_strict hd') (filesOf_strict hd)
  exact fun a b _ _ hab hba => absurd hba hab.asymm

end Files

section Walk

variable {root : Text} {entryGlob : Option Text} {walk : List (Except Failure Visit)}

theorem mapM_id_of_ok (h : ∀ failure, .error failure ∉ walk) :
    walk.mapM id = .ok (walk.filterMap Except.toOption) := by
  induction walk with
  | nil => rfl
  | cons first walk ih =>
    cases first with
    | error failure => exact absurd (.head _) (h failure)
    | ok visit =>
      rw [List.mapM_cons, ih fun failure hm => h failure (.tail _ hm)]
      rfl

theorem collectFrom_of_ok (h : ∀ failure, .error failure ∉ walk) : collectFrom root entryGlob walk =
    .ok (filesOf root entryGlob (walk.filterMap Except.toOption)) := by
  rw [collectFrom, mapM_id_of_ok h]
  rfl

theorem no_error_of_ok {files : List Text} (h : collectFrom root entryGlob walk = .ok files) :
    ∀ failure, .error failure ∉ walk := by
  obtain ⟨visits, hw, -⟩ := except_bind_eq_ok.mp h
  rw [mapM_id_eq_ok hw]
  intro failure hm
  obtain ⟨visit, -, hvisit⟩ := List.mem_map.mp hm
  cases hvisit

theorem mem_filterMap_toOption {visit : Visit} :
    visit ∈ walk.filterMap Except.toOption ↔ .ok visit ∈ walk := by
  rw [List.mem_filterMap]
  constructor
  · rintro ⟨entry, hm, hv⟩
    cases entry with
    | error failure => cases hv
    | ok found =>
      obtain rfl := Option.some.inj hv
      exact hm
  · exact fun hm => ⟨_, hm, rfl⟩

/-- Collecting fails exactly if the walk has a failure. Otherwise it gives the visits that are to be
linted and no others, in the strict order of their paths, whatever the order of the walk. -/
theorem collectFrom_exact (hd : VisitsOnce walk) :
    ((∃ failure, collectFrom root entryGlob walk = .error failure) ↔
      ∃ failure, .error failure ∈ walk) ∧
    ∀ files, collectFrom root entryGlob walk = .ok files →
      (∀ path, path ∈ files ↔
        ∃ visit, .ok visit ∈ walk ∧ IsLinted root entryGlob visit ∧ visit.path = path) ∧
      files.Pairwise PathIsBefore ∧
      ∀ other, walk.Perm other → collectFrom root entryGlob other = .ok files := by
  refine ⟨⟨?_, ?_⟩, ?_⟩
  · rintro ⟨failure, hfailed⟩
    by_contra hnone
    rw [collectFrom_of_ok (not_exists.mp hnone)] at hfailed
    cases hfailed
  · rintro ⟨failure, hm⟩
    cases hc : collectFrom root entryGlob walk with
    | error found => exact ⟨found, rfl⟩
    | ok files => exact absurd hm (no_error_of_ok hc failure)
  · intro files hc
    have hnone := no_error_of_ok hc
    rw [collectFrom_of_ok hnone] at hc
    obtain rfl := Except.ok.inj hc
    refine ⟨fun path => ?_, filesOf_strict hd, fun other hp => ?_⟩
    · simp only [mem_filesOf_iff, mem_filterMap_toOption]
    · have hnone' : ∀ failure, .error failure ∉ other :=
        fun failure hm => hnone failure (hp.symm.subset hm)
      rw [collectFrom_of_ok hnone', filesOf_perm hd (hp.filterMap _)]

end Walk

/-- A directory with files whose paths are in another order than their texts. -/
def nestedProject : FileSystem where
  entries :=
    [([['p']], .directory), ([['p'], "a.ts".toList], .file (.torn [])),
      ([['p'], "a-b".toList], .directory), ([['p'], "a-b".toList, "c.ts".toList], .file (.torn [])),
      ([['p'], ['a']], .directory), ([['p'], ['a'], "b.ts".toList], .file (.torn [])),
      ([['p'], ['a'], ".ts".toList], .file (.torn [])),
      ([['p'], "b.ts".toList], .file (.torn [])),
      ([['p'], "node_modules".toList], .directory),
      ([['p'], "node_modules".toList, "a.ts".toList], .file (.torn []))]
  currentDirectory := none

def nestedFiles : List Text :=
  ["/p/a/b.ts", "/p/a-b/c.ts", "/p/a.ts"].map String.toList

def nestedVisits : List Visit :=
  nestedFiles.map (⟨·, true⟩) ++
    (["/p", "/p/a-b", "/p/a", "/p/node_modules"].map fun path => ⟨path.toList, false⟩) ++
      ["/p/a/.ts", "/p/b.ts", "/p/node_modules/a.ts"].map fun path => ⟨path.toList, true⟩

def nestedWalk : List (Except Failure Visit) :=
  nestedVisits.map .ok

theorem nestedProject_collected : VisitsOnce nestedWalk ∧
    nestedWalk.Perm (nestedProject.walk ['/', 'p']) ∧
    collectFiles nestedProject ['/', 'p'] (some ['a']) = .ok nestedFiles ∧
    nestedFiles.Pairwise PathIsBefore ∧
    ∀ path, path ∈ nestedFiles ↔
      ∃ visit, .ok visit ∈ nestedWalk ∧ IsLinted ['/', 'p'] (some ['a']) visit ∧
        visit.path = path := by
  have hd : VisitsOnce nestedWalk := by
    unfold VisitsOnce
    decide +kernel
  have hp : nestedWalk.Perm (nestedProject.walk ['/', 'p']) := by
    decide +kernel
  have hfiles : (nestedVisits.filter (isCollected ['/', 'p'] (some ['a']))).map Visit.path =
      nestedFiles := by
    decide +kernel
  have hsorted : nestedFiles.mergeSort pathPrecedes = nestedFiles :=
    List.mergeSort_of_pairwise (by decide +kernel)
  have hcollect : collectFrom ['/', 'p'] (some ['a']) nestedWalk = .ok nestedFiles := by
    rw [← hsorted, ← hfiles]
    rfl
  obtain ⟨hmem, hstrict, hother⟩ := (collectFrom_exact hd).2 nestedFiles hcollect
  exact ⟨hd, hp, hother _ hp, hstrict, hmem⟩

end DirectImports
