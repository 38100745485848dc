import DirectImports.Collection

/-! Absolute paths of locations. A path is its location again, whether it is taken apart into
segments or into components, and what is left of it below another location are the names that lead
there. -/

namespace DirectImports

structure IsFileName (name : Text) : Prop where
  ne_nil : name ≠ []
  ne_dot : name ≠ ['.']
  ne_dots : name ≠ ['.', '.']
  noSlash : '/' ∉ name

def AreFileNames (names : List Text) : Prop :=
  ∀ name ∈ names, IsFileName name

theorem segments_of_noSlash {name : Text} (h : '/' ∉ name) : segments name = [name] := by
  induction name with
  | nil => rfl
  | cons c name ih =>
    have hc : c ≠ '/' := fun hc => h (by simp [hc])
    have hname : '/' ∉ name := fun hm => h (.tail _ hm)
    rw [segments, if_neg hc, ih hname]
    rfl

theorem segments_ne_nil (path : Text) : segments path ≠ [] := by
  cases path with
  | nil => exact List.cons_ne_nil _ _
  | cons c path =>
    rw [segments]
    split
    · exact List.cons_ne_nil _ _
    · cases segments path <;> exact List.cons_ne_nil _ _

theorem segments_append (a b : Text) : segments (a ++ '/' :: b) = segments a ++ segments b := by
  induction a with
  | nil => rfl
  | cons c a ih =>
    rw [List.cons_append, segments, segments, ih]
    split
    · rfl
    · obtain ⟨first, later, h⟩ := List.exists_cons_of_ne_nil (segments_ne_nil a)
      rw [h]
      rfl

theorem segments_append_slash {name : Text} (h : '/' ∉ name) (path : Text) :
    segments (name ++ '/' :: path) = name :: segments path := by
  rw [segments_append, segments_of_noSlash h, List.singleton_append]

/-- Each name of a location with a slash in front of it. -/
def slashed (location : Location) : Text :=
  location.flatMap fun name => '/' :: name

theorem segments_slashed {location : Location} (h : AreFileNames location) (hne : location ≠ []) :
    segments (slashed location) = [] :: location := by
  induction location with
  | nil => exact absurd rfl hne
  | cons name location ih =>
    obtain ⟨hname, hlocation⟩ := List.forall_mem_cons.mp h
    have hfirst : slashed (name :: location) = '/' :: (name ++ slashed location) := rfl
    rw [hfirst, segments, if_pos rfl]
    by_cases hl : location = []
    · subst hl
      simp [slashed, segments_of_noSlash hname.noSlash]
    · have hlater := ih hlocation hl
      obtain ⟨next, rest, rfl⟩ := List.exists_cons_of_ne_nil hl
      have hnext : slashed (next :: rest) = '/' :: (next ++ slashed rest) := rfl
      rw [hnext, segments, if_pos rfl] at hlater
      rw [hnext, segments_append_slash hname.noSlash, List.cons.inj hlater |>.2]

theorem absolutePath_of_ne_nil {location : Location} (h : location ≠ []) :
    FileSystem.absolutePath location = slashed location := by
  rw [FileSystem.absolutePath, if_neg h]
  rfl

theorem isAbsolute_absolutePath (location : Location) :
    isAbsolute (FileSystem.absolutePath location) = true := by
  cases location <;> rfl

theorem ofSegment?_fileName {name : Text} (h : IsFileName name) :
    Component.ofSegment? name = some (.child name) := by
  rw [Component.ofSegment?, if_neg, if_neg h.ne_dots]
  rintro (hname | hname)
  · exact h.ne_nil hname
  · exact h.ne_dot hname

theorem filterMap_ofSegment? {names : List Text} (h : AreFileNames names) :
    names.filterMap Component.ofSegment? = names.map .child := by
  induction names with
  | nil => rfl
  | cons name names ih =>
    obtain ⟨hname, hnames⟩ := List.forall_mem_cons.mp h
    rw [List.filterMap_cons_some (ofSegment?_fileName hname), ih hnames, List.map_cons]

theorem components_absolutePath {location : Location} (h : AreFileNames location) :
    components (FileSystem.absolutePath location) = .root :: location.map .child := by
  rw [components, if_pos (isAbsolute_absolutePath location)]
  by_cases hl : location = []
  · subst hl
    rfl
  · rw [absolutePath_of_ne_nil hl, segments_slashed h hl]
    have hempty : Component.ofSegment? [] = none := rfl
    rw [List.filterMap_cons_none hempty, filterMap_ofSegment? h]

theorem isAbsolute_of_noSlash {name : Text} (h : '/' ∉ name) : isAbsolute name = false := by
  cases name with
  | nil => rfl
  | cons c name =>
    have hc : c ≠ '/' := fun hc => h (by simp [hc])
    simp [isAbsolute, hc]

theorem slashed_concat (location : Location) (name : Text) :
    slashed (location ++ [name]) = slashed location ++ '/' :: name := by
  simp [slashed]

theorem joinPath_absolutePath {location : Location} {name : Text} (hl : AreFileNames location)
    (hn : IsFileName name) : joinPath (FileSystem.absolutePath location) name =
      FileSystem.absolutePath (location ++ [name]) := by
  have hrelative := isAbsolute_of_noSlash hn.noSlash
  have htarget := absolutePath_of_ne_nil (List.concat_ne_nil name location)
  rw [joinPath, if_neg (by simp [hrelative]), htarget, slashed_concat]
  rcases List.eq_nil_or_concat location with rfl | ⟨above, last, hlocation⟩
  · rfl
  · -- A path that ends in a name does not end in a slash.
    rw [List.concat_eq_append] at hlocation
    subst hlocation
    have hlast : IsFileName last := hl last (by simp)
    obtain ⟨front, c, hlc⟩ := (List.eq_nil_or_concat last).resolve_left hlast.ne_nil
    have hc : c ≠ '/' := fun hc => hlast.noSlash (by simp [hlc, hc])
    have hend : (slashed (above ++ [last])).getLast? = some c := by
      simp [slashed_concat, hlc, List.getLast?_append, List.getLast?_cons]
    rw [absolutePath_of_ne_nil (by simp), hend, Option.any_some, if_pos (by simp [hc])]

theorem AreFileNames.append {a b : List Text} (ha : AreFileNames a) (hb : AreFileNames b) :
    AreFileNames (a ++ b) := by
  intro name hn
  rcases List.mem_append.mp hn with hn | hn
  · exact ha name hn
  · exact hb name hn

theorem AreFileNames.of_append {a b : List Text} (h : AreFileNames (a ++ b)) :
    AreFileNames a ∧ AreFileNames b :=
  ⟨fun name hn => h name (by simp [hn]), fun name hn => h name (by simp [hn])⟩

theorem foldl_joinPath {base : Location} {names : List Text} (hb : AreFileNames base)
    (hn : AreFileNames names) : names.foldl joinPath (FileSystem.absolutePath base) =
      FileSystem.absolutePath (base ++ names) := by
  induction names generalizing base with
  | nil => simp
  | cons name names ih =>
    obtain ⟨hname, hnames⟩ := List.forall_mem_cons.mp hn
    have hbase := hb.append (List.forall_mem_singleton.mpr hname)
    rw [List.foldl_cons, joinPath_absolutePath hb hname, ih hbase hnames, List.append_assoc]
    rfl

theorem absolutePath_injective {a b : Location} (ha : AreFileNames a) (hb : AreFileNames b)
    (h : FileSystem.absolutePath a = FileSystem.absolutePath b) : a = b := by
  have hparts := congrArg components h
  rw [components_absolutePath ha, components_absolutePath hb] at hparts
  exact List.map_inj_right (fun _ _ h => Component.child.inj h) |>.mp (List.cons.inj hparts).2

/-- The names that lead to a file from above, as one path. -/
def relativePath (names : List Text) : Text :=
  joinWith ['/'] names

theorem renderComponents_names (names : List Text) :
    renderComponents (names.map .child) = relativePath names := by
  rw [renderComponents]
  · simp [relativePath, Function.comp_def, Component.text]
  · cases names <;> simp

theorem relativeTo?_absolutePath {base : Location} {names : List Text} (hb : AreFileNames base)
    (hn : AreFileNames names) : relativeTo? (FileSystem.absolutePath base)
      (FileSystem.absolutePath (base ++ names)) = some (relativePath names) := by
  have hbelow : below? (.root :: base.map .child) (.root :: (base ++ names).map .child) =
      some (names.map .child) := by
    simp [below?, List.isPrefixOf_iff_prefix]
  rw [relativeTo?, components_absolutePath hb, components_absolutePath (hb.append hn), hbelow,
    Option.map_some, renderComponents_names]

theorem segments_joinWith {names : List Text} (h : ∀ name ∈ names, '/' ∉ name) (hne : names ≠ []) :
    segments (joinWith ['/'] names) = names := by
  induction names with
  | nil => exact absurd rfl hne
  | cons name names ih =>
    obtain ⟨hname, hnames⟩ := List.forall_mem_cons.mp h
    cases names with
    | nil => simpa [joinWith] using segments_of_noSlash hname
    | cons next names =>
      rw [joinWith_cons_cons, List.singleton_append, segments_append_slash hname,
        ih hnames (List.cons_ne_nil next names)]

theorem segments_relativePath {names : List Text} (h : AreFileNames names) (hne : names ≠ []) :
    segments (relativePath names) = names :=
  segments_joinWith (fun name hn => (h name hn).noSlash) hne

theorem relativePath_injective {a b : List Text} (ha : AreFileNames a) (hb : AreFileNames b)
    (h : relativePath a = relativePath b) : a = b := by
  have hempty {names : List Text} (hn : AreFileNames names) (hne : names ≠ []) :
      segments (relativePath names) ≠ segments [] := by
    rw [segments_relativePath hn hne]
    rintro rfl
    exact (List.forall_mem_singleton.mp hn).ne_nil rfl
  have hsegments := congrArg segments h
  by_cases hna : a = []
  · subst hna
    by_cases hnb : b = []
    · exact hnb.symm
    · exact absurd hsegments.symm (hempty hb hnb)
  · by_cases hnb : b = []
    · subst hnb
      exact absurd hsegments (hempty ha hna)
    · rwa [segments_relativePath ha hna, segments_relativePath hb hnb] at hsegments

end DirectImports
