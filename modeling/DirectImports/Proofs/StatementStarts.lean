import Mathlib.Data.List.Perm.Basic
import DirectImports.Proofs.ImportStart
import DirectImports.Proofs.Spans

/-! Where the statements of a source begin. Two languages find the same import declarations in a
source if each of them begins a statement wherever the other one finds a declaration. -/

namespace DirectImports

section Beginnings

/-- Where a statement or a declaration begins among pieces that begin at an offset. -/
def beginningsFrom (offset : Nat) : List Piece → List (Nat × Option ImportDeclaration)
  | [] => []
  | .gap text :: pieces => beginningsFrom (offset + byteLength text) pieces
  | .statement text :: pieces => (offset, none) :: beginningsFrom (offset + byteLength text) pieces
  | .declaration text declaration :: pieces =>
    (offset, some declaration) :: beginningsFrom (offset + byteLength text) pieces

theorem mem_declarationsFrom_iff {offset : Nat} {pieces : List Piece}
    {declaration : ImportDeclaration} : declaration ∈ declarationsFrom offset pieces ↔
      ∃ start found, (start, some found) ∈ beginningsFrom offset pieces ∧
        declaration = found.shift start := by
  induction pieces generalizing offset with
  | nil => simp [declarationsFrom, beginningsFrom]
  | cons piece pieces ih =>
    cases piece with
    | gap text => exact ih
    | statement text => simpa [declarationsFrom, beginningsFrom] using ih
    | declaration text first =>
      rw [declarationsFrom, beginningsFrom, List.mem_cons, ih]
      constructor
      · rintro (rfl | ⟨start, found, hm, rfl⟩)
        · exact ⟨offset, first, .head _, rfl⟩
        · exact ⟨start, found, .tail _ hm, rfl⟩
      · rintro ⟨start, found, hm, rfl⟩
        rcases List.mem_cons.mp hm with heq | hm
        · obtain ⟨rfl, hfound⟩ := Prod.mk.inj heq
          obtain rfl := Option.some.inj hfound
          exact .inl rfl
        · exact .inr ⟨start, found, hm, rfl⟩

/-- What begins at a place is read from the text behind it. -/
structure BeginsAt (language : Language) (text : Text) (offset start : Nat)
    (found : Option ImportDeclaration) (before behind : Text) : Prop where
  text : text = before ++ behind
  start : start = offset + byteLength before
  trimmed : IsTrimmed behind
  begins : (beginning? language behind).isSome = true
  read : (readImport language.typescript behind).map Prod.fst = found

theorem BeginsAt.later {language : Language} {text before behind : Text} {offset start : Nat}
    {found : Option ImportDeclaration} (front : Text)
    (h : BeginsAt language text (offset + byteLength front) start found before behind) :
    BeginsAt language (front ++ text) offset start found (front ++ before) behind where
  text := by rw [h.text, List.append_assoc]
  start := by rw [h.start, byteLength_append, Nat.add_assoc]
  trimmed := h.trimmed
  begins := h.begins
  read := h.read

theorem Reads.beginsAt {language : Language} {text : Text} {pieces : List Piece}
    {offset start : Nat} {found : Option ImportDeclaration} (h : Reads language text pieces)
    (hm : (start, found) ∈ beginningsFrom offset pieces) :
    ∃ before behind, BeginsAt language text offset start found before behind := by
  induction h generalizing offset with
  | finish => cases hm
  | @declaration gap text behind declaration pieces hg hb later ih =>
    have ht := isTrimmed_of_skipTrivia hg
    rcases List.mem_cons.mp hm with heq | hm
    · obtain ⟨rfl, rfl⟩ := Prod.mk.inj heq
      refine ⟨gap, text ++ behind, rfl, rfl, ht, ?_, by rw [hb]; rfl⟩
      rw [(beginning?_declaration_iff ht).mpr hb]
      rfl
    · obtain ⟨before, rest, hbegins⟩ := ih hm
      exact ⟨_, rest, (hbegins.later text).later gap⟩
  | @statement gap text behind pieces hg hb later ih =>
    have ht := isTrimmed_of_skipTrivia hg
    rcases List.mem_cons.mp hm with heq | hm
    · obtain ⟨rfl, rfl⟩ := Prod.mk.inj heq
      refine ⟨gap, text ++ behind, rfl, rfl, ht, by rw [hb]; rfl, ?_⟩
      cases hr : readImport language.typescript (text ++ behind) with
      | none => rfl
      | some found =>
        rw [(beginning?_declaration_iff ht).mpr hr] at hb
        cases hb
    · obtain ⟨before, rest, hbegins⟩ := ih hm
      exact ⟨_, rest, (hbegins.later text).later gap⟩

/-- Where two languages both begin something, they begin the same. -/
theorem BeginsAt.agree {language language' : Language} {text before behind before' behind' : Text}
    {offset start : Nat} {declaration : ImportDeclaration} {found : Option ImportDeclaration}
    (h : BeginsAt language text offset start (some declaration) before behind)
    (h' : BeginsAt language' text offset start found before' behind') :
    found = some declaration := by
  have hlength : byteLength before = byteLength before' :=
    Nat.add_left_cancel (h.start.symm.trans h'.start)
  have hcut := cutAt_append before behind
  rw [hlength, ← h.text, h'.text, cutAt_append] at hcut
  obtain ⟨rfl, rfl⟩ := Prod.mk.inj (Option.some.inj hcut)
  obtain ⟨⟨_, rest⟩, hr, rfl⟩ := Option.map_eq_some_iff.mp h.read
  obtain ⟨beginning, hb⟩ := Option.isSome_iff_exists.mp h'.begins
  rw [← h'.read, beginning?_import h.trimmed hr hb]
  rfl

theorem BeginsAt.span_start {language : Language} {text before behind : Text} {offset start : Nat}
    {declaration : ImportDeclaration}
    (h : BeginsAt language text offset start (some declaration) before behind) :
    (declaration.shift start).span.start = start := by
  obtain ⟨⟨_, rest⟩, hr, rfl⟩ := Option.map_eq_some_iff.mp h.read
  obtain ⟨_, _, _, -, -, rfl⟩ := readImport_eq hr
  exact Nat.add_zero start

end Beginnings

section Sources

/-- Where the statements of a source begin in the language of a path. -/
def statementStarts (path source : Text) : List Nat :=
  (pieces? (Language.ofPath path) source).elim [] fun pieces =>
    (beginningsFrom 0 pieces).map Prod.fst

variable {path path' source : Text} {declarations declarations' : List ImportDeclaration}

theorem statementStarts_of_pieces {pieces : List Piece}
    (h : pieces? (Language.ofPath path) source = some pieces) :
    statementStarts path source = (beginningsFrom 0 pieces).map Prod.fst := by
  rw [statementStarts, h]
  rfl

theorem exists_beginsAt {pieces : List Piece} {start : Nat} {found : Option ImportDeclaration}
    (h : pieces? (Language.ofPath path) source = some pieces)
    (hm : (start, found) ∈ beginningsFrom 0 pieces) :
    ∃ line before behind, source = line ++ skipInterpreter source ∧
      BeginsAt (Language.ofPath path) (skipInterpreter source) (0 + byteLength line) start found
        before behind := by
  obtain ⟨line, rest, later, hsource, hrest, rfl, hread⟩ := pieces?_eq_some_iff.mp h
  obtain ⟨before, behind, hbegins⟩ := hread.beginsAt hm
  exact ⟨line, before, behind, by rw [hrest, ← hsource], by rwa [hrest]⟩

theorem start_mem_statementStarts (h : importDeclarations path source = .ok declarations) :
    ∀ declaration ∈ declarations, declaration.span.start ∈ statementStarts path source := by
  obtain ⟨pieces, hp, rfl⟩ := importDeclarations_eq_ok h
  intro declaration hd
  obtain ⟨start, found, hm, rfl⟩ := mem_declarationsFrom_iff.mp hd
  obtain ⟨_, _, _, -, hbegins⟩ := exists_beginsAt hp hm
  rw [hbegins.span_start, statementStarts_of_pieces hp]
  exact List.mem_map_of_mem hm

/-- A declaration of one language is one of another where that one begins a statement. -/
theorem mem_of_start (h : importDeclarations path source = .ok declarations)
    (h' : importDeclarations path' source = .ok declarations') {declaration : ImportDeclaration}
    (hd : declaration ∈ declarations)
    (hs : declaration.span.start ∈ statementStarts path' source) : declaration ∈ declarations' := by
  obtain ⟨pieces, hp, rfl⟩ := importDeclarations_eq_ok h
  obtain ⟨pieces', hp', rfl⟩ := importDeclarations_eq_ok h'
  obtain ⟨start, found, hm, rfl⟩ := mem_declarationsFrom_iff.mp hd
  obtain ⟨line, _, _, hline, hbegins⟩ := exists_beginsAt hp hm
  rw [hbegins.span_start, statementStarts_of_pieces hp'] at hs
  obtain ⟨⟨_, found'⟩, hm', rfl⟩ := List.mem_map.mp hs
  obtain ⟨line', _, _, hline', hbegins'⟩ := exists_beginsAt hp' hm'
  obtain rfl : line = line' := List.append_cancel_right (hline.symm.trans hline')
  rw [hbegins.agree hbegins'] at hm'
  exact mem_declarationsFrom_iff.mpr ⟨_, found, hm', rfl⟩

theorem nodup_of_declarations (h : importDeclarations path source = .ok declarations) :
    declarations.Nodup := by
  refine (starts_of_declarations h).imp fun hab he => ?_
  rw [he] at hab
  exact Nat.lt_irrefl _ hab

/-- Two languages find the same declarations if both begin a statement at each of them. -/
theorem declarations_eq_iff (h : importDeclarations path source = .ok declarations)
    (h' : importDeclarations path' source = .ok declarations') : declarations = declarations' ↔
      (∀ declaration ∈ declarations, declaration.span.start ∈ statementStarts path' source) ∧
      ∀ declaration ∈ declarations', declaration.span.start ∈ statementStarts path source := by
  constructor
  · rintro rfl
    exact ⟨start_mem_statementStarts h', start_mem_statementStarts h⟩
  · rintro ⟨hs, hs'⟩
    have hmem (declaration : ImportDeclaration) :
        declaration ∈ declarations ↔ declaration ∈ declarations' :=
      ⟨fun hd => mem_of_start h h' hd (hs declaration hd),
        fun hd => mem_of_start h' h hd (hs' declaration hd)⟩
    have hperm := (List.perm_ext_iff_of_nodup (nodup_of_declarations h)
      (nodup_of_declarations h')).mpr hmem
    exact hperm.eq_of_pairwise (fun a b _ _ hab hba => absurd hab (Nat.lt_asymm hba))
      (starts_of_declarations h) (starts_of_declarations h')

end Sources

end DirectImports
