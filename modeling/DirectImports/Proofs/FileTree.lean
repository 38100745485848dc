import DirectImports.Proofs.FilePath
import Mathlib.Data.List.Nodup

/-! File systems that are trees: what lies above an entry is a directory. In such a file system the
absolute path of a directory or file leads back to it, that of a link to what the link leads to, and
this stays so whatever is written or removed. -/

namespace DirectImports

theorem except_bind_eq_ok {ε α β : Type} {attempt : Except ε α} {next : α → Except ε β} {b : β} :
    attempt >>= next = .ok b ↔ ∃ a, attempt = .ok a ∧ next a = .ok b := by
  cases attempt with
  | error error => simp [bind, Except.bind]
  | ok a => simp [bind, Except.bind]

namespace FileSystem

/-- What the operations below keep of a file system. -/
structure IsTree (system : FileSystem) : Prop where
  distinct : (system.entries.map Prod.fst).Nodup
  names : ∀ entry ∈ system.entries, AreFileNames entry.1
  above : ∀ location name, (system.entry? (location ++ [name])).isSome →
    system.entry? location = some .directory
  current : ∀ location, system.currentDirectory = some location →
    system.entry? location = some .directory

theorem isTree_empty : IsTree ⟨[], none⟩ :=
  ⟨.nil, nofun, fun _ _ h => by simp [ entry?] at h, nofun⟩

theorem entry?_root (system : FileSystem) : system.entry? [] = some .directory :=
  rfl

theorem entry?_of_ne_nil {system : FileSystem} {location : Location} (h : location ≠ []) :
    system.entry? location =
      (system.entries.find? fun entry => entry.1 = location).map Prod.snd := by
  rw [ entry?, if_neg h]

theorem mem_of_found {system : FileSystem} {location : Location} {entry : Entry}
    (hl : location ≠ []) (h : system.entry? location = some entry) :
    (location, entry) ∈ system.entries := by
  rw [entry?_of_ne_nil hl] at h
  obtain ⟨found, hf, rfl⟩ := Option.map_eq_some_iff.mp h
  have hlocation : found.1 = location := by simpa using List.find?_some hf
  rw [← hlocation]
  exact List.mem_of_find?_eq_some hf

/-! What a location names, links followed. -/

theorem follow?_of_directory {system : FileSystem} {location : Location}
    (h : system.entry? location = some .directory) : system.follow? location = some location := by
  simp [follow?, linkTarget, h]

theorem follow?_of_file {system : FileSystem} {location : Location} {content : Content}
    (h : system.entry? location = some (.file content)) :
    system.follow? location = some location := by
  simp [follow?, linkTarget, h]

/-- What a location names is a directory or a file, where following ends. -/
theorem follow?_spec {system : FileSystem} {location found : Location}
    (h : system.follow? location = some found) :
    (system.entry? location).isSome ∧ system.follow? found = some found ∧
      (system.entry? found = some .directory ∨
        ∃ content, system.entry? found = some (.file content)) := by
  have hsome : (system.entry? location).isSome := by
    by_contra hnone
    rw [Option.not_isSome_iff_eq_none] at hnone
    simp [follow?, linkTarget, hnone] at h
  unfold follow? at h
  cases he : system.entry? (system.linkTarget location) with
  | none => simp [he] at h
  | some entry =>
    cases entry with
    | link target => simp [he] at h
    | directory =>
      obtain rfl : system.linkTarget location = found := by simpa [he] using h
      exact ⟨hsome, follow?_of_directory he, .inl he⟩
    | file content =>
      obtain rfl : system.linkTarget location = found := by simpa [he] using h
      exact ⟨hsome, follow?_of_file he, .inr ⟨content, he⟩⟩

theorem linkTarget_of_follow? {system : FileSystem} {location found : Location}
    (h : system.follow? location = some found) : system.linkTarget location = found := by
  unfold follow? at h
  split at h
  · cases h
  · cases h
  · exact Option.some.inj h

/-- A location is the name of a file, of its own or through a link. -/
def NamesFile (system : FileSystem) (location : Location) : Prop :=
  ∃ found content, system.follow? location = some found ∧
    system.entry? found = some (.file content)

theorem NamesFile.isSome {system : FileSystem} {location : Location}
    (h : system.NamesFile location) : (system.entry? location).isSome := by
  obtain ⟨found, content, hf, -⟩ := h
  exact (follow?_spec hf).1

/-- There are no links. -/
def IsUnlinked (system : FileSystem) : Prop :=
  ∀ location target, system.entry? location ≠ some (.link target)

theorem IsUnlinked.file {system : FileSystem} {location : Location} (hu : system.IsUnlinked)
    (h : system.NamesFile location) : ∃ content, system.entry? location = some (.file content) := by
  obtain ⟨found, content, hf, he⟩ := h
  have htarget : system.linkTarget location = location := by
    cases hl : system.entry? location with
    | none => simp [linkTarget, hl]
    | some entry =>
      cases entry with
      | link target => exact absurd hl (hu location target)
      | _ => simp [linkTarget, hl]
  rw [linkTarget_of_follow? hf] at htarget
  exact ⟨content, htarget ▸ he⟩

theorem isFileEntry_iff {system : FileSystem} {location : Location} {entry : Entry}
    (h : system.entry? location = some entry) :
    system.isFileEntry entry = true ↔ system.NamesFile location := by
  cases entry with
  | directory => simp [isFileEntry, NamesFile, follow?_of_directory h, h]
  | file content => simp [isFileEntry, NamesFile, follow?_of_file h, h]
  | link target =>
    have htarget : system.linkTarget location = target := by simp [linkTarget, h]
    cases he : system.entry? target with
    | none => simp [isFileEntry, NamesFile, follow?, htarget, he]
    | some other => cases other <;> simp [isFileEntry, NamesFile, follow?, htarget, he]

namespace IsTree

variable {system : FileSystem} (ht : system.IsTree)
include ht

theorem entry?_of_mem {location : Location} {entry : Entry} (hl : location ≠ [])
    (h : (location, entry) ∈ system.entries) : system.entry? location = some entry := by
  have hfound : (system.entries.find? fun entry => entry.1 = location).isSome :=
    List.find?_isSome.mpr ⟨_, h, by simp⟩
  obtain ⟨found, hf⟩ := Option.isSome_iff_exists.mp hfound
  have hlocation : found.1 = location := by simpa using List.find?_some hf
  have hsame : found = (location, entry) :=
    List.inj_on_of_nodup_map ht.distinct (List.mem_of_find?_eq_some hf) h hlocation
  rw [entry?_of_ne_nil hl, hf, hsame, Option.map_some]

theorem areFileNames {location : Location} (h : (system.entry? location).isSome) :
    AreFileNames location := by
  by_cases hl : location = []
  · subst hl
    exact nofun
  · obtain ⟨entry, he⟩ := Option.isSome_iff_exists.mp h
    exact ht.names _ (mem_of_found hl he)

theorem entry?_eq_none {location : Location} (h : ¬AreFileNames location) :
    system.entry? location = none :=
  Option.not_isSome_iff_eq_none.mp fun hs => h (ht.areFileNames hs)

/-- What lies above an entry is a directory. -/
theorem directory_of_append {location below : Location} (hne : below ≠ [])
    (h : (system.entry? (location ++ below)).isSome) :
    system.entry? location = some .directory := by
  induction below generalizing location with
  | nil => exact absurd rfl hne
  | cons name below ih =>
    by_cases hb : below = []
    · subst hb
      exact ht.above location name h
    · have hnext : system.entry? (location ++ [name]) = some .directory :=
        ih hb (by simpa using h)
      exact ht.above location name (by rw [hnext]; rfl)

/-- The names below a directory lead to what the location of the last one names. -/
theorem foldlM_step {location below found : Location}
    (hd : system.entry? location = some .directory)
    (h : system.follow? (location ++ below) = some found) :
    below.foldlM system.step location = .ok found := by
  induction below generalizing location with
  | nil =>
    rw [List.append_nil, follow?_of_directory hd] at h
    exact congrArg Except.ok (Option.some.inj h)
  | cons name below ih =>
    have hlater : system.follow? ((location ++ [name]) ++ below) = some found := by simpa using h
    have hsome := (follow?_spec hlater).1
    by_cases hb : below = []
    · subst hb
      rw [List.append_nil] at hlater hsome
      have hname : IsFileName name := ht.areFileNames hsome name (by simp)
      have hstep : system.step location name = .ok found := by
        simp [step, hd, hname.ne_nil, hname.ne_dot, hname.ne_dots, hlater, pure, Except.pure]
      rw [List.foldlM_cons, hstep]
      rfl
    · have hnext := ht.directory_of_append hb hsome
      have hname : IsFileName name :=
        ht.areFileNames (by rw [hnext]; rfl : (system.entry? (location ++ [name])).isSome)
          name (by simp)
      have hstep : system.step location name = .ok (location ++ [name]) := by
        simp [step, hd, hname.ne_nil, hname.ne_dot, hname.ne_dots, follow?_of_directory hnext,
          pure, Except.pure]
      rw [List.foldlM_cons, hstep]
      exact ih hnext hlater

/-- The absolute path of a location leads to what it names. -/
theorem locate_absolutePath {location found : Location}
    (h : system.follow? location = some found) :
    system.locate (absolutePath location) = .ok found := by
  have horigin : system.origin (absolutePath location) = .ok [] := by
    rw [origin, if_pos (isAbsolute_absolutePath location)]
    rfl
  have hstart : system.step [] [] = .ok [] := by
    simp [step, entry?_root, pure, Except.pure]
  rw [locate, horigin]
  by_cases hl : location = []
  · subst hl
    obtain rfl : [] = found := Option.some.inj h
    simp [absolutePath, segments, bind, Except.bind, hstart, pure, Except.pure]
  · rw [absolutePath_of_ne_nil hl, segments_slashed (ht.areFileNames (follow?_spec h).1) hl]
    have hfold : location.foldlM system.step [] = .ok found := ht.foldlM_step rfl h
    simpa [bind, Except.bind, hstart] using hfold

/-- What a step of a path leads to is no link. -/
theorem step_found {location next : Location} {segment : Text}
    (h : system.step location segment = .ok next) : system.follow? next = some next := by
  unfold step at h
  cases he : system.entry? location with
  | none => simp [he, throw, throwThe, MonadExceptOf.throw] at h
  | some entry =>
    cases entry with
    | file content => simp [he, throw, throwThe, MonadExceptOf.throw] at h
    | link target => simp [he, throw, throwThe, MonadExceptOf.throw] at h
    | directory =>
      simp only [he] at h
      split at h
      · obtain rfl := Except.ok.inj h
        exact follow?_of_directory he
      split at h
      · obtain rfl := Except.ok.inj h
        rcases List.eq_nil_or_concat location with rfl | ⟨above, name, hl⟩
        · rfl
        · rw [List.concat_eq_append] at hl
          subst hl
          rw [List.dropLast_concat]
          exact follow?_of_directory (ht.above above name (by rw [he]; rfl))
      split at h
      next found hf =>
        obtain rfl := Except.ok.inj h
        exact (follow?_spec hf).2.1
      next => simp [throw, throwThe, MonadExceptOf.throw] at h

theorem foldlM_found {names : List Text} {location found : Location} (hne : names ≠ [])
    (h : names.foldlM system.step location = .ok found) : system.follow? found = some found := by
  induction names generalizing location with
  | nil => exact absurd rfl hne
  | cons name names ih =>
    rw [List.foldlM_cons] at h
    obtain ⟨next, hs, h⟩ := except_bind_eq_ok.mp h
    by_cases hn : names = []
    · subst hn
      obtain rfl := Except.ok.inj h
      exact ht.step_found hs
    · exact ih hn h

theorem locate_found {path : Text} {location : Location} (h : system.locate path = .ok location) :
    system.follow? location = some location := by
  obtain ⟨start, -, h⟩ := except_bind_eq_ok.mp h
  exact ht.foldlM_found (segments_ne_nil path) h

theorem lookup_absolutePath {location found : Location} {entry : Entry}
    (h : system.follow? location = some found) (he : system.entry? found = some entry) :
    system.lookup (absolutePath location) = .ok entry := by
  simp [lookup, ht.locate_absolutePath h, bind, Except.bind, he, pure, Except.pure]

/-- Reading a link reads what it leads to. -/
theorem readText_absolutePath {location found : Location} {entry : Entry}
    (h : system.follow? location = some found) (he : system.entry? found = some entry) :
    system.readText (absolutePath location) = entry.text := by
  simp [readText, ht.lookup_absolutePath h he, bind, Except.bind]

end IsTree

theorem find?_filter (entries : List (Location × Entry)) (keeps : Location → Bool)
    (location : Location) :
    ((entries.filter fun old => keeps old.1).find? fun old => old.1 = location) =
      if keeps location then entries.find? fun old => old.1 = location else none := by
  rw [List.find?_filter]
  split
  next hk =>
    congr 1
    funext old
    by_cases hold : old.1 = location
    · simp [hold, hk]
    · simp [hold]
  next hk =>
    rw [List.find?_eq_none]
    rintro old - hold
    obtain ⟨hkeeps, rfl⟩ : keeps old.1 = true ∧ old.1 = location := by simpa using hold
    exact hk hkeeps

theorem entry?_put (system : FileSystem) {location : Location} (hl : location ≠ [])
    (entry : Entry) (other : Location) : entry? (system.put location entry) other =
      if other = location then some entry else system.entry? other := by
  by_cases ho : other = []
  · subst ho
    rw [if_neg (Ne.symm hl)]
    rfl
  have hold := find?_filter system.entries (fun old => decide (old ≠ location)) other
  rw [entry?_of_ne_nil ho, entry?_of_ne_nil ho, put, List.find?_append, hold]
  by_cases hsame : other = location
  · subst hsame
    simp
  · simp [hsame, Ne.symm hsame]

theorem IsTree.put {system : FileSystem} {above : Location} {name : Text} (ht : system.IsTree)
    (hd : system.entry? above = some .directory) (hn : IsFileName name)
    (he : system.entry? (above ++ [name]) ≠ some .directory) (entry : Entry) :
    (system.put (above ++ [name]) entry).IsTree := by
  have hne : above ++ [name] ≠ [] := by simp
  have hentry := entry?_put system hne entry
  refine ⟨?_, ?_, ?_, ?_⟩
  · rw [FileSystem.put, List.map_append, List.map_singleton]
    refine List.Nodup.append (ht.distinct.sublist (List.filter_sublist.map _)) (by simp) ?_
    simp
  · intro old ho
    rcases List.mem_append.mp ho with ho | ho
    · exact ht.names old (List.mem_of_mem_filter ho)
    · obtain rfl := List.mem_singleton.mp ho
      have habove := ht.areFileNames (by rw [hd]; rfl : (system.entry? above).isSome)
      exact habove.append (List.forall_mem_singleton.mpr hn)
  · intro location below hbelow
    rw [hentry] at hbelow ⊢
    by_cases hl : location ++ [below] = above ++ [name]
    · obtain ⟨rfl, -⟩ := List.append_inj' hl rfl
      rw [if_neg (by simp), hd]
    · rw [if_neg hl] at hbelow
      have hdirectory := ht.above location below hbelow
      have hother : location ≠ above ++ [name] := by
        rintro rfl
        exact he hdirectory
      rw [if_neg hother, hdirectory]
  · intro location hl
    have hdirectory := ht.current location hl
    have hother : location ≠ above ++ [name] := by
      rintro rfl
      exact he hdirectory
    rw [hentry, if_neg hother, hdirectory]

/-- A file may be put in place of a file. -/
theorem IsTree.put_file {system : FileSystem} {location : Location} {old : Content}
    (ht : system.IsTree) (h : system.entry? location = some (.file old)) (content : Content) :
    (system.put location (.file content)).IsTree := by
  have hsome : (system.entry? location).isSome := by
    rw [h]
    rfl
  rcases List.eq_nil_or_concat location with rfl | ⟨above, name, hl⟩
  · cases h
  · rw [List.concat_eq_append] at hl
    subst hl
    have hname : IsFileName name := ht.areFileNames hsome name (by simp)
    exact ht.put (ht.above above name hsome) hname (by rw [h]; exact nofun) _

theorem noSlash_of_segments {path segment : Text} (h : segment ∈ segments path) :
    '/' ∉ segment := by
  induction path generalizing segment with
  | nil => simp_all [segments]
  | cons c path ih =>
    rw [segments] at h
    by_cases hc : c = '/'
    · rw [if_pos hc] at h
      rcases List.mem_cons.mp h with rfl | h
      · exact List.not_mem_nil
      · exact ih h
    · rw [if_neg hc] at h
      cases hs : segments path with
      | nil => simp_all [attach, Ne.symm hc]
      | cons first later =>
        rw [hs] at h
        rcases List.mem_cons.mp h with rfl | h
        · have hfirst := ih (by rw [hs]; exact .head later)
          simp [hfirst, Ne.symm hc]
        · exact ih (by rw [hs]; exact .tail _ h)

theorem step_notFound {system : FileSystem} {location : Location} {segment : Text}
    (hd : system.entry? location = some .directory) (hs : '/' ∉ segment)
    (h : system.step location segment = .error .notFound) : IsFileName segment := by
  simp only [step, hd] at h
  split at h
  · cases h
  next hdot =>
    split at h
    · cases h
    next hdots =>
      obtain ⟨hempty, hdot⟩ := not_or.mp hdot
      exact ⟨hempty, hdot, hdots, hs⟩

theorem IsTree.createSegments {system after : FileSystem} {location found : Location}
    {names : List Text} (ht : system.IsTree) (hd : system.entry? location = some .directory)
    (hn : ∀ name ∈ names, '/' ∉ name)
    (h : system.createSegments location names = .ok (after, found)) :
    after.IsTree ∧ after.entry? found = some .directory := by
  induction names generalizing system location with
  | nil =>
    obtain ⟨rfl, rfl⟩ := Prod.mk.inj (Except.ok.inj h)
    exact ⟨ht, hd⟩
  | cons name names ih =>
    obtain ⟨hname, hnames⟩ := List.forall_mem_cons.mp hn
    rw [FileSystem.createSegments] at h
    split at h
    next next hstep =>
      split at h
      next hnext => exact ih ht hnext hnames h
      next => cases h
    next hstep =>
      simp only at h
      split at h
      next => cases h
      next hnone =>
        have hfile := step_notFound hd hname hstep
        have habsent : system.entry? (location ++ [name]) = none := by simpa using hnone
        have hput := ht.put hd hfile (by rw [habsent]; exact nofun) .directory
        refine ih hput ?_ hnames h
        rw [entry?_put system (by simp), if_pos rfl]
    next => cases h

theorem IsTree.origin {system : FileSystem} {path : Text} {location : Location}
    (ht : system.IsTree) (h : system.origin path = .ok location) :
    system.entry? location = some .directory := by
  unfold FileSystem.origin at h
  split at h
  · obtain rfl := Except.ok.inj h
    rfl
  · split at h
    next here hc =>
      split at h
      · cases h
      · obtain rfl := Except.ok.inj h
        exact ht.current here hc
    next => cases h

theorem IsTree.createDirectories {system after : FileSystem} {path : Text} (ht : system.IsTree)
    (h : system.createDirectories path = .ok after) : after.IsTree := by
  unfold FileSystem.createDirectories at h
  split at h
  · obtain rfl := Except.ok.inj h
    exact ht
  · obtain ⟨start, ho, h⟩ := except_bind_eq_ok.mp h
    obtain ⟨created, hc, h⟩ := except_bind_eq_ok.mp h
    obtain rfl := Except.ok.inj h
    exact (ht.createSegments (ht.origin ho) (fun _ => noSlash_of_segments) hc).1

theorem IsTree.write {system after : FileSystem} {path : Text} {content : Content}
    (ht : system.IsTree) (h : system.write path content = .ok after) : after.IsTree := by
  obtain ⟨start, ho, h⟩ := except_bind_eq_ok.mp h
  obtain ⟨⟨between, above⟩, hc, h⟩ := except_bind_eq_ok.mp h
  have hdirectories : ∀ name ∈ (segments path).dropLast, '/' ∉ name := fun name hm =>
    noSlash_of_segments (List.dropLast_subset _ hm)
  obtain ⟨hb, hd⟩ := ht.createSegments (ht.origin ho) hdirectories hc
  have hslash : '/' ∉ (segments path).getLastD [] := by
    cases hs : (segments path).getLast? with
    | none => simp [List.getLastD_eq_getLast?, hs]
    | some name =>
      rw [List.getLastD_eq_getLast?, hs]
      exact noSlash_of_segments (List.mem_of_getLast? hs)
  simp only [bind, Except.bind] at h
  generalize (segments path).getLastD [] = name at h hslash
  split at h
  · cases h
  next hname =>
    split at h
    · cases h
    next hleads =>
      split at h
      · cases h
      next he =>
        obtain rfl := Except.ok.inj h
        cases hentry : between.entry? (above ++ [name]) with
        | none =>
          obtain ⟨hempty, hdot⟩ := not_or.mp hname
          obtain ⟨hdot, hdots⟩ := not_or.mp hdot
          rw [show between.linkTarget (above ++ [name]) = above ++ [name] by
            simp [linkTarget, hentry]]
          exact hb.put hd ⟨hempty, hdot, hdots, hslash⟩ (by rw [hentry]; exact nofun) _
        | some entry =>
          -- What is there is written over where it is, or where it leads.
          obtain ⟨found, hf⟩ : ∃ found, between.follow? (above ++ [name]) = some found := by
            refine Option.ne_none_iff_exists'.mp fun hnone => hleads ?_
            rw [hentry, hnone]
            exact ⟨rfl, rfl⟩
          obtain rfl := linkTarget_of_follow? hf
          rcases (follow?_spec hf).2.2 with hdirectory | ⟨old, hold⟩
          · exact absurd hdirectory he
          · exact hb.put_file hold content

theorem IsTree.overwrite {system : FileSystem} {path : Text} {location : Location}
    {content : Content} (ht : system.IsTree) (hl : system.locate path = .ok location)
    (h : system.entry? location = some (.file content)) (text : Text) :
    (system.overwrite path text).IsTree := by
  rw [FileSystem.overwrite, hl]
  exact ht.put_file h _

theorem IsTree.changeDirectory {system after : FileSystem} {path : Text} (ht : system.IsTree)
    (h : system.changeDirectory path = .ok after) : after.IsTree := by
  obtain ⟨location, -, h⟩ := except_bind_eq_ok.mp h
  split at h
  next hd =>
    obtain rfl := Except.ok.inj h
    refine ⟨ht.distinct, ht.names, ht.above, fun here hh => ?_⟩
    obtain rfl := Option.some.inj hh
    exact hd
  next => cases h

theorem IsTree.remove {system after : FileSystem} {path : Text} (ht : system.IsTree)
    (h : system.remove path = .ok after) : after.IsTree := by
  obtain ⟨removed, -, h⟩ := except_bind_eq_ok.mp h
  have hafter := Except.ok.inj h
  have hentry (location : Location) (hne : location ≠ []) : after.entry? location =
      if removed.isPrefixOf location then none else system.entry? location := by
    have hkept := find?_filter system.entries (fun old => !removed.isPrefixOf old) location
    rw [← hafter, entry?_of_ne_nil hne, hkept, entry?_of_ne_nil hne]
    cases removed.isPrefixOf location <;> rfl
  have hdirectory (location : Location) (hk : removed.isPrefixOf location = false)
      (hd : system.entry? location = some .directory) :
      after.entry? location = some .directory := by
    by_cases hne : location = []
    · subst hne
      rfl
    · rw [hentry location hne, hk]
      exact hd
  refine ⟨?_, ?_, ?_, ?_⟩
  · rw [← hafter]
    exact ht.distinct.sublist (List.filter_sublist.map _)
  · rw [← hafter]
    exact fun old ho => ht.names old (List.mem_of_mem_filter ho)
  · intro location name hname
    rw [hentry _ (by simp)] at hname
    split at hname
    · cases hname
    next hk =>
      -- A location below what is removed is removed as well.
      have hkept : removed.isPrefixOf location = false := by
        rw [Bool.eq_false_iff]
        intro hp
        have hbegins := List.isPrefixOf_iff_prefix.mp hp
        exact hk (List.isPrefixOf_iff_prefix.mpr (hbegins.trans (List.prefix_append _ _)))
      exact hdirectory location hkept (ht.above location name hname)
  · intro location hc
    rw [← hafter] at hc
    obtain ⟨hc, hk⟩ := Option.filter_eq_some_iff.mp hc
    exact hdirectory location (by simpa using hk) (ht.current location hc)

end FileSystem

end DirectImports
