import Mathlib.Data.List.Induction
import DirectImports.Proofs.WarningOrder

/-! Positions and offsets. A position is found again in its text by passing whole lines and then
characters of one line, so that a position and its text give the offset back. -/

namespace DirectImports

/-- A line with the line feed at its end. -/
def IsTerminated (line : Text) : Prop :=
  ∃ body, line = body ++ ['\n'] ∧ '\n' ∉ body

/-- What is passed on the way to a position: whole lines, and the front of the line it is on. -/
structure Position.Passes (position : Position) (lines : List Text) (front : Text) : Prop where
  terminated : ∀ line ∈ lines, IsTerminated line
  sameLine : '\n' ∉ front
  line : lines.length + 1 = position.line
  column : front.length + 1 = position.column

/-- A position is found at an offset of a text. -/
def Position.IsAt (position : Position) (text : Text) (offset : Nat) : Prop :=
  ∃ lines front after, position.Passes lines front ∧ text = lines.flatten ++ front ++ after ∧
    byteLength (lines.flatten ++ front) = offset

theorem foldl_advance_sameLine {front : Text} (h : '\n' ∉ front) (position : Position) :
    front.foldl Position.advance position =
      ⟨position.line, position.column + front.length⟩ := by
  induction front generalizing position with
  | nil => rfl
  | cons c front ih =>
    rw [List.mem_cons, not_or] at h
    obtain ⟨hc, hfront⟩ := h
    have hadvance : position.advance c = ⟨position.line, position.column + 1⟩ := by
      rw [Position.advance, if_neg (Ne.symm hc)]
    rw [List.foldl_cons, hadvance, ih hfront, List.length_cons, Nat.add_assoc,
      Nat.add_comm 1 front.length]

theorem foldl_advance_terminated {line : Text} (h : IsTerminated line) (position : Position) :
    line.foldl Position.advance position = ⟨position.line + 1, 1⟩ := by
  obtain ⟨body, rfl, hbody⟩ := h
  rw [List.foldl_append, foldl_advance_sameLine hbody]
  rfl

theorem foldl_advance_lines {lines : List Text} (h : ∀ line ∈ lines, IsTerminated line)
    (n : Nat) : lines.flatten.foldl Position.advance ⟨n, 1⟩ = ⟨lines.length + n, 1⟩ := by
  induction lines generalizing n with
  | nil => rw [List.flatten_nil, List.foldl_nil, List.length_nil, Nat.zero_add]
  | cons line lines ih =>
    obtain ⟨hline, hlines⟩ := List.forall_mem_cons.mp h
    rw [List.flatten_cons, List.foldl_append, foldl_advance_terminated hline, ih hlines,
      List.length_cons, Nat.add_assoc, Nat.add_comm n 1]

theorem Position.Passes.foldl_eq {position : Position} {lines : List Text} {front : Text}
    (h : position.Passes lines front) :
    (lines.flatten ++ front).foldl advance ⟨1, 1⟩ = position := by
  rw [List.foldl_append, foldl_advance_lines h.terminated, foldl_advance_sameLine h.sameLine]
  obtain ⟨line, column⟩ := position
  rw [← show _ = line from h.line, ← show _ = column from h.column, Nat.add_comm 1]

/-- Every text is some lines and the beginning of one more. -/
theorem exists_passes (text : Text) : ∃ (position : Position) (lines : List Text) (front : Text),
    position.Passes lines front ∧ text = lines.flatten ++ front := by
  induction text using List.reverseRecOn with
  | nil => exact ⟨⟨1, 1⟩, [], [], ⟨nofun, nofun, rfl, rfl⟩, rfl⟩
  | append_singleton text c ih =>
    obtain ⟨position, lines, front, h, rfl⟩ := ih
    by_cases hc : c = '\n'
    · subst hc
      have hline : IsTerminated (front ++ ['\n']) := ⟨front, rfl, h.sameLine⟩
      refine ⟨⟨lines.length + 2, 1⟩, lines ++ [front ++ ['\n']], [], ⟨?_, nofun, ?_, rfl⟩, ?_⟩
      · exact List.forall_mem_append.mpr ⟨h.terminated, List.forall_mem_singleton.mpr hline⟩
      · rw [List.length_append, List.length_singleton]
      · simp
    · refine ⟨⟨lines.length + 1, front.length + 2⟩, lines, front ++ [c],
        ⟨h.terminated, ?_, rfl, ?_⟩, List.append_assoc ..⟩
      · rw [List.mem_append, List.mem_singleton, not_or]
        exact ⟨h.sameLine, Ne.symm hc⟩
      · rw [List.length_append, List.length_singleton]

theorem positionAt_eq_some_iff {text : Text} {offset : Nat} {position : Position} :
    positionAt text offset = some position ↔ position.IsAt text offset := by
  constructor
  · intro h
    obtain ⟨before, after, rfl, rfl, rfl⟩ := positionAt_eq_some h
    obtain ⟨position, lines, front, hp, rfl⟩ := exists_passes before
    rw [hp.foldl_eq]
    exact ⟨lines, front, after, hp, rfl, rfl⟩
  · rintro ⟨lines, front, after, hp, rfl, rfl⟩
    rw [positionAt, cutAt_append, Option.map_some]
    exact congrArg some hp.foldl_eq

namespace Position

theorem IsBefore.irrefl (position : Position) : ¬position.IsBefore position := by
  unfold IsBefore
  omega

/-- An offset has one position, and a later offset a later position. -/
theorem isBefore_iff {text : Text} {a b : Nat} {p q : Position}
    (hp : positionAt text a = some p) (hq : positionAt text b = some q) :
    (p = q → a = b) ∧ (a < b ↔ p.IsBefore q) := by
  rcases Nat.lt_trichotomy a b with h | rfl | h
  · have hlt := positionAt_isBefore h hp hq
    refine ⟨?_, fun _ => hlt, fun _ => h⟩
    rintro rfl
    exact absurd hlt (IsBefore.irrefl p)
  · obtain rfl := Option.some.inj (hp.symm.trans hq)
    exact ⟨fun _ => rfl, fun h => absurd h (Nat.lt_irrefl a), fun h => absurd h (IsBefore.irrefl p)⟩
  · have hlt := positionAt_isBefore h hq hp
    refine ⟨?_, fun hab => absurd h (Nat.lt_asymm hab), fun hpq => ?_⟩
    · rintro rfl
      exact absurd hlt (IsBefore.irrefl p)
    · exact absurd (hlt.trans hpq) (IsBefore.irrefl q)

end Position

theorem Span.slice_eq_some {span : Span} {text inside : Text} (h : span.slice text = some inside) :
    ∃ before after, text = before ++ (inside ++ after) ∧
      span = ⟨byteLength before, byteLength before + byteLength inside⟩ := by
  obtain ⟨sides, hsplit, rfl⟩ := Option.map_eq_some_iff.mp h
  have hfits : span.Fits text :=
    Span.split_isSome_iff.mp (Option.isSome_iff_exists.mpr ⟨sides, hsplit⟩)
  obtain ⟨before, inside, after, rfl, rfl⟩ := Span.fits_iff.mp hfits
  rw [Span.split_append] at hsplit
  obtain rfl := Option.some.inj hsplit
  exact ⟨before, after, rfl, rfl⟩

/-- A warning quotes the text that a diagnostic is about, and gives the place of this text. -/
def Warning.Quotes (warning : Warning) (diagnostic : Diagnostic) (source : Text) : Prop :=
  ∃ before after, source = before ++ (warning.statement ++ after) ∧
    diagnostic.span =
      ⟨byteLength before, byteLength before + byteLength warning.statement⟩ ∧
    warning.position.IsAt source (byteLength before)

theorem warning?_quotes {diagnostic : Diagnostic} {name source : Text} {fix : Bool}
    {warning : Warning} (h : diagnostic.warning? name source fix = some warning) :
    warning.Quotes diagnostic source := by
  have hposition := (warning?_eq_some h).1
  obtain ⟨position, -, h⟩ := Option.bind_eq_some_iff.mp h
  obtain ⟨statement, hslice, h⟩ := Option.bind_eq_some_iff.mp h
  obtain rfl := Option.some.inj h
  obtain ⟨before, after, hsource, hspan⟩ := Span.slice_eq_some hslice
  rw [hspan] at hposition
  exact ⟨before, after, hsource, hspan, positionAt_eq_some_iff.mp hposition⟩

/-- The position of an offset leads back to it: the lines before it and the front of its own line
are passed with exactly as many bytes. Different offsets have different positions, later ones later,
and a warning gives the place where the text that it quotes stands. -/
theorem positionAt_identifies :
    (∀ text offset, IsBoundary text offset → ∃ position, positionAt text offset = some position ∧
      1 ≤ position.line ∧ 1 ≤ position.column ∧ position.IsAt text offset ∧
        ∀ other, position.IsAt text other → other = offset) ∧
    (∀ text a b p q, positionAt text a = some p → positionAt text b = some q →
      (p = q → a = b) ∧ (a < b ↔ p.IsBefore q)) ∧
    ∀ options root fix system file check, checkFile options root fix system file = .ok check →
      ∃ source diagnostics, system.readText file = .ok source ∧
        lintSource options file source = .ok diagnostics ∧
        ∀ warning ∈ check.warnings, ∃ diagnostic ∈ diagnostics,
          warning.Quotes diagnostic source := by
  refine ⟨?_, fun text a b p q hp hq => Position.isBefore_iff hp hq, ?_⟩
  · intro text offset hb
    obtain ⟨position, hposition⟩ : ∃ position, positionAt text offset = some position := by
      obtain ⟨sides, hcut⟩ := Option.isSome_iff_exists.mp (isBoundary_iff.mp hb)
      rw [positionAt, hcut, Option.map_some]
      exact ⟨_, rfl⟩
    have hat := positionAt_eq_some_iff.mp hposition
    obtain ⟨lines, front, after, hpasses, -, -⟩ := hat
    refine ⟨position, hposition, ?_, ?_, positionAt_eq_some_iff.mp hposition, fun other ho => ?_⟩
    · exact Nat.le.intro ((Nat.add_comm 1 _).trans hpasses.line)
    · exact Nat.le.intro ((Nat.add_comm 1 _).trans hpasses.column)
    · exact (Position.isBefore_iff (positionAt_eq_some_iff.mpr ho) hposition).1 rfl
  · intro options root fix system file check hc
    obtain ⟨source, hread, hc⟩ := except_bind_eq_ok.mp hc
    obtain ⟨diagnostics, hl, hw⟩ := checkSource_diagnostics hc
    refine ⟨source, diagnostics, ?_, hl, fun warning hm => ?_⟩
    · cases hr : system.readText file with
      | error error =>
        rw [hr] at hread
        cases hread
      | ok text =>
        rw [hr] at hread
        obtain rfl := Except.ok.inj hread
        rfl
    · obtain ⟨diagnostic, hd, hwarning⟩ := mem_of_mapM hw warning hm
      exact ⟨diagnostic, hd, warning?_quotes hwarning⟩

/-- A character of two bytes stands on the first line, and another one before the import. -/
def accentedImport : Text :=
  "'é'\n/*é*/import {A} from 'l'".toList

def accentedProject : FileSystem where
  entries := [([['p']], .directory), ([['p'], "a.ts".toList], .file (.whole accentedImport))]
  currentDirectory := none

def accentedWarning : Warning where
  file := "a.ts".toList
  position := ⟨2, 6⟩
  statement := "import {A} from 'l'".toList
  message := barrelMessage
  replacement := some "import A from \"l/_A\";".toList
  isFixed := false

theorem accentedImport_identified :
    IsBoundary accentedImport 11 ∧ positionAt accentedImport 11 = some ⟨2, 6⟩ ∧
      (∀ other, Position.IsAt ⟨2, 6⟩ accentedImport other ↔ other = 11) ∧
      positionAt accentedImport 5 = some ⟨2, 1⟩ ∧ Position.IsBefore ⟨2, 1⟩ ⟨2, 6⟩ ∧
      checkFile underscoredOptions ['/', 'p'] false accentedProject "/p/a.ts".toList =
        .ok ⟨[accentedWarning], none⟩ ∧
      ∃ diagnostic, accentedWarning.Quotes diagnostic accentedImport := by
  have hboundary : IsBoundary accentedImport 11 := by decide +kernel
  have hposition : positionAt accentedImport 11 = some ⟨2, 6⟩ := by decide +kernel
  have hline : positionAt accentedImport 5 = some ⟨2, 1⟩ := by decide +kernel
  have hcheck : checkFile underscoredOptions ['/', 'p'] false accentedProject "/p/a.ts".toList =
      .ok ⟨[accentedWarning], none⟩ := by
    decide +kernel
  obtain ⟨hfound, hordered, hquoted⟩ := positionAt_identifies
  refine ⟨hboundary, hposition, fun other => ?_, hline, ?_, hcheck, ?_⟩
  · obtain ⟨position, hp, -, -, hat, hunique⟩ := hfound _ _ hboundary
    obtain rfl := Option.some.inj (hposition.symm.trans hp)
    exact ⟨hunique other, fun ho => ho ▸ hat⟩
  · exact (hordered _ _ _ _ _ hline hposition).2.mp (by decide)
  · obtain ⟨source, diagnostics, hread, -, hwarnings⟩ := hquoted _ _ _ _ _ _ hcheck
    obtain ⟨diagnostic, -, hquotes⟩ := hwarnings _ (.head _)
    obtain rfl : accentedImport = source := Except.ok.inj hread
    exact ⟨diagnostic, hquotes⟩

end DirectImports
