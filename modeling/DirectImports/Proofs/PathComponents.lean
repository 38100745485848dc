import DirectImports.Proofs.FileTree

/-! Paths put together from names. The components of a path that was joined or rendered are those
that it was made of. -/

namespace DirectImports

theorem isAbsolute_of_segments {path first : Text} {later : List Text}
    (h : segments path = first :: later) (hf : first ≠ []) : isAbsolute path = false := by
  cases path with
  | nil => rfl
  | cons c path =>
    have hc : c ≠ '/' := by
      rintro rfl
      rw [segments, if_pos rfl] at h
      exact hf (List.cons.inj h).1.symm
    simp [isAbsolute, hc]

theorem components_append {a : Text} (ha : a ≠ []) (b : Text) :
    components (a ++ '/' :: b) = components a ++ (segments b).filterMap Component.ofSegment? := by
  have habsolute : isAbsolute (a ++ '/' :: b) = isAbsolute a := by
    rw [isAbsolute, isAbsolute, List.head?_append_of_ne_nil a ha]
  have hfirst : (segments a ++ segments b).head? = (segments a).head? :=
    List.head?_append_of_ne_nil _ (segments_ne_nil a)
  simp only [components, habsolute, segments_append, hfirst, List.filterMap_append]
  split
  · rfl
  · split <;> rfl

theorem components_fileName {name : Text} (hn : IsFileName name) :
    components name = [.child name] := by
  have hfirst : ([name] : List Text).head? ≠ some ['.'] := fun h => hn.ne_dot (Option.some.inj h)
  have hparts : [name].filterMap Component.ofSegment? = [.child name] := by
    rw [List.filterMap_cons_some (ofSegment?_fileName hn), List.filterMap_nil]
  rw [components, segments_of_noSlash hn.noSlash, isAbsolute_of_noSlash hn.noSlash,
    if_neg Bool.false_ne_true, if_neg hfirst, hparts]

theorem components_slash (path : Text) :
    components ('/' :: path) = .root :: (segments path).filterMap Component.ofSegment? := by
  rw [components, segments, if_pos rfl]
  rfl

/-- A name that is joined to a path is its last component. -/
theorem components_joinPath {name : Text} (hn : IsFileName name) (path : Text) :
    components (joinPath path name) = components path ++ [.child name] := by
  have hparts : (segments name).filterMap Component.ofSegment? = [.child name] := by
    rw [segments_of_noSlash hn.noSlash, List.filterMap_cons_some (ofSegment?_fileName hn),
      List.filterMap_nil]
  rw [joinPath, isAbsolute_of_noSlash hn.noSlash, if_neg Bool.false_ne_true]
  rcases List.eq_nil_or_concat path with rfl | ⟨front, c, rfl⟩
  · exact components_fileName hn
  rw [List.concat_eq_append, List.getLast?_concat, Option.any_some]
  by_cases hc : c = '/'
  · subst hc
    have hjoined : front ++ ['/'] ++ name = front ++ '/' :: name := by simp
    rw [if_neg (by simp), hjoined]
    by_cases hf : front = []
    · subst hf
      rw [List.nil_append, List.nil_append, components_slash, components_slash, hparts]
      rfl
    · rw [components_append hf, components_append hf, hparts, List.append_assoc]
      rfl
  · rw [if_pos (by simp [hc]), components_append (by simp), hparts]

theorem components_foldl_joinPath {names : List Text} (hn : AreFileNames names) (path : Text) :
    components (names.foldl joinPath path) = components path ++ names.map .child := by
  induction names generalizing path with
  | nil => simp
  | cons name names ih =>
    obtain ⟨hname, hnames⟩ := List.forall_mem_cons.mp hn
    rw [List.foldl_cons, ih hnames, components_joinPath hname, List.append_assoc, List.map_cons]
    rfl

/-- Whether a component can stand in a path that leads from one place to another. -/
def Component.IsWay : Component → Prop
  | parent => True
  | child name => IsFileName name
  | _ => False

theorem Component.IsWay.ofSegment? {part : Component} (h : part.IsWay) :
    Component.ofSegment? part.text = some part := by
  cases part with
  | root => exact h.elim
  | current => exact h.elim
  | parent => rfl
  | child name => exact ofSegment?_fileName h

theorem Component.IsWay.text_ne_nil {part : Component} (h : part.IsWay) : part.text ≠ [] := by
  intro hempty
  have hsome := h.ofSegment?
  rw [hempty] at hsome
  cases hsome

theorem Component.IsWay.text_ne_dot {part : Component} (h : part.IsWay) : part.text ≠ ['.'] := by
  intro hdot
  have hsome := h.ofSegment?
  rw [hdot] at hsome
  cases hsome

theorem Component.IsWay.noSlash {part : Component} (h : part.IsWay) : '/' ∉ part.text := by
  cases part with
  | root => exact h.elim
  | current => exact h.elim
  | parent => decide
  | child name => exact IsFileName.noSlash h

theorem Component.isWay_of_ofSegment? {segment : Text} {part : Component} (hs : '/' ∉ segment)
    (h : ofSegment? segment = some part) : part.IsWay := by
  rw [Component.ofSegment?] at h
  by_cases hskip : segment = [] ∨ segment = ['.']
  · rw [if_pos hskip] at h
    cases h
  rw [if_neg hskip] at h
  by_cases hdots : segment = ['.', '.']
  · rw [if_pos hdots] at h
    obtain rfl := Option.some.inj h
    trivial
  · rw [if_neg hdots] at h
    obtain rfl := Option.some.inj h
    obtain ⟨hempty, hdot⟩ := not_or.mp hskip
    exact ⟨hempty, hdot, hdots, hs⟩

/-- An absolute path leads from the root along a way. -/
theorem components_of_isAbsolute {path : Text} (h : isAbsolute path = true) :
    ∃ way, components path = .root :: way ∧ ∀ part ∈ way, part.IsWay := by
  refine ⟨(segments path).filterMap Component.ofSegment?, by rw [components, if_pos h], ?_⟩
  intro part hp
  obtain ⟨segment, hs, hpart⟩ := List.mem_filterMap.mp hp
  exact Component.isWay_of_ofSegment? (FileSystem.noSlash_of_segments hs) hpart

/-- A way is read from its path again. -/
theorem components_renderComponents {way : List Component} (h : ∀ part ∈ way, part.IsWay) :
    components (renderComponents way) = way := by
  cases way with
  | nil => rfl
  | cons part later =>
    have hpart : part.IsWay := h part (.head _)
    have hrender : renderComponents (part :: later) =
        joinWith ['/'] ((part :: later).map Component.text) := by
      rw [renderComponents]
      rintro hroot
      obtain ⟨rfl, -⟩ := List.cons.inj hroot
      exact hpart
    have hsegments : segments (renderComponents (part :: later)) =
        part.text :: later.map Component.text := by
      rw [hrender, ← List.map_cons]
      refine segments_joinWith (fun text ht => ?_) (List.cons_ne_nil _ _)
      obtain ⟨other, ho, rfl⟩ := List.mem_map.mp ht
      exact (h other ho).noSlash
    have hparts : (part.text :: later.map Component.text).filterMap Component.ofSegment? =
        part :: later := by
      rw [← List.map_cons, List.filterMap_map]
      have hsome : ∀ other ∈ part :: later,
          (Component.ofSegment? ∘ Component.text) other = some other :=
        fun other ho => (h other ho).ofSegment?
      rw [List.filterMap_congr hsome, List.filterMap_some]
    have hfirst : (part.text :: later.map Component.text).head? ≠ some ['.'] :=
      fun hdot => hpart.text_ne_dot (Option.some.inj hdot)
    rw [components, isAbsolute_of_segments hsegments hpart.text_ne_nil, hsegments, hparts,
      if_neg Bool.false_ne_true, if_neg hfirst]

end DirectImports
