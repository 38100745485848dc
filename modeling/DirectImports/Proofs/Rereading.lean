import DirectImports.Proofs.Agreement
import DirectImports.Proofs.KeptStatements

/-! Reading a text again once it is fixed. Every piece that stays is read as before, and the direct
imports are read in the place of the declarations they replace. -/

namespace DirectImports

def ImportDeclaration.fixedImports? (options : RuleOptions) (declaration : ImportDeclaration) :
    Option (List Imported) :=
  match options.barrelOf? declaration with
  | none => some [declaration.imported]
  | some pattern =>
    (declaration.namedBindings.mapM (directImported pattern)).map fun direct =>
      declaration.residualImported pattern.barrel ++ direct

def fixedImports? (options : RuleOptions) : List ImportDeclaration → Option (List Imported)
  | [] => some []
  | declaration :: declarations => do
    return (← declaration.fixedImports? options) ++ (← fixedImports? options declarations)

theorem fixedImports?_cons {options : RuleOptions} {declaration : ImportDeclaration}
    {declarations : List ImportDeclaration} {first later : List Imported}
    (h : declaration.fixedImports? options = some first)
    (h' : fixedImports? options declarations = some later) :
    fixedImports? options (declaration :: declarations) = some (first ++ later) := by
  simp [fixedImports?, h, h']

/-- Declarations whose direct imports can be read again wherever they are diagnosed. -/
def AreWritable (options : RuleOptions) (declarations : List ImportDeclaration) : Prop :=
  ∀ declaration ∈ declarations, ∀ pattern ∈ options.barrelOf? declaration,
    declaration.IsWritable pattern

instance (options : RuleOptions) (declarations : List ImportDeclaration) :
    Decidable (AreWritable options declarations) :=
  inferInstanceAs (Decidable (∀ declaration ∈ declarations, _))

theorem skipTrivia_fixed {gap code code' : Text} (hg : (skipTrivia (gap ++ code)).2 = code)
    (hc : code ≠ []) (hc' : IsTrimmed code') : (skipTrivia (gap ++ code')).2 = code' := by
  have hskip : skipTrivia (gap ++ code) = (_, code) := Prod.ext rfl hg
  rw [skipTrivia_append hskip hc hc']

/-- Pieces are read again once they are fixed, and so are their declarations. -/
theorem Reads.fixed {options : RuleOptions} {language : Language} {text fixed : Text}
    {pieces : List Piece} (h : Reads language text pieces)
    (hf : fixedText? options pieces = some fixed)
    (hw : AreWritable options (pieces.filterMap Piece.declaration?))
    (hs : AreSettled options language pieces) :
    ∃ pieces', Reads language fixed pieces' ∧
      fixedImports? options (pieces.filterMap Piece.declaration?) =
        some ((pieces'.filterMap Piece.declaration?).map ImportDeclaration.imported) := by
  induction h generalizing fixed with
  | finish hb =>
    obtain rfl := fixedText?_last hf
    exact ⟨_, .finish hb, rfl⟩
  | @declaration gap text behind declaration pieces hg hb later ih =>
    have hne : text ++ behind ≠ [] := by simp [readImport_ne_nil hb]
    have htrim := isTrimmed_of_skipTrivia hg
    obtain ⟨hw, hw'⟩ := List.forall_mem_cons.mp hw
    obtain ⟨fixed, hl, hfixed⟩ := fixedText?_declaration hf
    obtain ⟨pieces', hread, himports⟩ := ih hl hw' hs.2.2
    rcases hfixed with ⟨hp, rfl⟩ | ⟨pattern, texts, hp, ht, rfl⟩
    · have hg' := skipTrivia_fixed hg hne (((later.agree hl).append text).isTrimmed htrim)
      have hfirst : declaration.fixedImports? options = some [declaration.imported] := by
        simp [ImportDeclaration.fixedImports?, hp]
      -- What stands behind the declaration has changed, but it may end there as before.
      exact ⟨_, .declaration hg' (readImport_append hb (later.endsAlike hl)) hread,
        fixedImports?_cons hfirst himports⟩
    · obtain ⟨statements, direct, hne', rfl, hall, hdirect, himported⟩ :=
        directStatements_eq (readImport_shape hb) (barrelOf?_eq_some hp).2 (hw pattern hp) ht
      have hfirst : declaration.fixedImports? options = some statements.imported := by
        simp [ImportDeclaration.fixedImports?, hp, hdirect, himported]
      refine ⟨_, hread.statements hne' hall fun code hc => skipTrivia_fixed hg hne hc, ?_⟩
      rw [List.filterMap_append, Statements.pieces_declarations, List.map_append, List.map_map]
      exact fixedImports?_cons hfirst himports
  | @statement gap text behind pieces hg hb later ih =>
    have hne : text ++ behind ≠ [] := by
      have hpos := (beginning?_statement hb).1
      simp [List.ne_nil_of_length_pos hpos]
    have htrim := isTrimmed_of_skipTrivia hg
    obtain ⟨fixed, hl, rfl⟩ := fixedText?_statement hf
    obtain ⟨-, hsettled, hs'⟩ := hs
    obtain ⟨pieces', hread, himports⟩ := ih hl hw hs'
    have hg' := skipTrivia_fixed hg hne (((later.agree hl).append text).isTrimmed htrim)
    exact ⟨_, .statement hg' (later.beginning?_fixed hb hsettled hl) hread, himports⟩

theorem dropWhile_append_eq_iff {p : Char → Bool} {a b : Text} :
    (a ++ b).dropWhile p = b ↔ (∀ c ∈ a, p c = true) ∧ ∀ c, b.head? = some c → p c = false := by
  constructor
  · intro h
    have hb := List.head?_dropWhile_not p (a ++ b)
    rw [h] at hb
    have ha : a = (a ++ b).takeWhile p := by
      have ht := List.takeWhile_append_dropWhile (p := p) (l := a ++ b)
      rw [h] at ht
      exact (List.append_cancel_right ht).symm
    refine ⟨fun c hc => ?_, fun c hc => ?_⟩
    · rw [ha] at hc
      exact List.all_eq_true.mp List.all_takeWhile c hc
    · rw [hc] at hb
      exact hb
  · rintro ⟨ha, hb⟩
    rw [List.dropWhile_append_of_pos ha]
    cases b with
    | nil => rfl
    | cons c b => simp [hb c rfl]

/-- The text behind a line that may name an interpreter, and that line. -/
theorem skipInterpreter_eq_iff {line rest : Text} :
    skipInterpreter (line ++ rest) = rest ↔
      (line = [] ∧ ∀ text, rest ≠ '#' :: '!' :: text) ∨
      ∃ name, line = '#' :: '!' :: name ∧ (∀ c ∈ name, isLineEnd c = false) ∧
        ∀ c, rest.head? = some c → isLineEnd c = true := by
  constructor
  · intro h
    unfold skipInterpreter at h
    split at h
    next text ht =>
      have hl := (List.dropWhile_suffix (l := text) fun c => !isLineEnd c).length_le
      rw [h] at hl
      rcases List.append_eq_cons_iff.mp ht with ⟨rfl, hrest⟩ | ⟨line, rfl, hline⟩
      · rw [hrest, List.length_cons, List.length_cons] at hl
        omega
      · rcases List.append_eq_cons_iff.mp hline.symm with ⟨rfl, hrest⟩ | ⟨name, rfl, rfl⟩
        · rw [hrest, List.length_cons] at hl
          omega
        · rw [dropWhile_append_eq_iff] at h
          exact .inr ⟨name, rfl, by simpa using h⟩
    next hn =>
      obtain rfl : line = [] := by simpa using h
      exact .inl ⟨rfl, fun text ht => hn text (by simpa using ht)⟩
  · rintro (⟨rfl, hn⟩ | ⟨name, rfl, hname, hrest⟩)
    · unfold skipInterpreter
      split
      next text ht => exact absurd ht (hn text)
      next => rfl
    · exact dropWhile_append_eq_iff.mpr ⟨by simpa using hname, by simpa using hrest⟩

/-- The line that names an interpreter ends where it did. -/
theorem skipInterpreter_fixed {line rest fixed : Text}
    (h : skipInterpreter (line ++ rest) = rest) (ha : Agree rest fixed) :
    skipInterpreter (line ++ fixed) = fixed := by
  rcases ha with rfl | ⟨p, q, later, rfl, rfl, hq, ht⟩
  · exact h
  rw [skipInterpreter_eq_iff] at h ⊢
  refine h.imp (And.imp_right fun hn text htext => ?_) ?_
  · match p with
    | [] => simp at htext
    | [c] => simp at htext
    | c :: d :: p =>
      simp only [List.cons_append, List.cons.injEq] at htext
      exact hn (p ++ q) (by simp [htext.1, htext.2.1])
  · rintro ⟨name, rfl, hname, hrest⟩
    refine ⟨name, rfl, hname, ?_⟩
    cases p with
    | nil =>
      -- No line ends before code.
      obtain ⟨c, q, rfl⟩ := List.exists_cons_of_ne_nil hq
      have hc := hrest c rfl
      have hslash : c ≠ '/' := by
        rintro rfl
        exact absurd hc (by decide)
      rw [(ht.head hslash).1] at hc
      cases hc
    | cons c p => exact hrest

theorem pieces?_fixed {options : RuleOptions} {language : Language} {source fixed : Text}
    {pieces : List Piece} (hp : pieces? language source = some pieces)
    (hf : fixedText? options pieces = some fixed)
    (hw : AreWritable options (pieces.filterMap Piece.declaration?))
    (hs : AreSettled options language pieces) :
    ∃ pieces', pieces? language fixed = some pieces' ∧
      fixedImports? options (pieces.filterMap Piece.declaration?) =
        some ((pieces'.filterMap Piece.declaration?).map ImportDeclaration.imported) := by
  obtain ⟨line, rest, later, rfl, hr, rfl, hread⟩ := pieces?_eq_some_iff.mp hp
  obtain ⟨fixed, hl, rfl⟩ := fixedText?_gap hf
  obtain ⟨pieces', hread', himports⟩ := hread.fixed hl hw hs.2
  have hr' := skipInterpreter_fixed hr (hread.agree hl)
  exact ⟨_, pieces?_eq_some_iff.mpr ⟨line, fixed, pieces', rfl, hr', rfl, hread'⟩, himports⟩

theorem fixedImports?_declarationsFrom (options : RuleOptions) (offset : Nat)
    (pieces : List Piece) :
    fixedImports? options (declarationsFrom offset pieces) =
      fixedImports? options (pieces.filterMap Piece.declaration?) := by
  induction pieces generalizing offset with
  | nil => rfl
  | cons piece pieces ih =>
    cases piece with
    | gap | statement => exact ih _
    | declaration text declaration =>
      have hl := ih (offset + byteLength text)
      simp only [declarationsFrom, fixedImports?, hl]
      rfl

theorem areWritable_declarationsFrom {options : RuleOptions} {offset : Nat} {pieces : List Piece}
    (h : AreWritable options (declarationsFrom offset pieces)) :
    AreWritable options (pieces.filterMap Piece.declaration?) := by
  induction pieces generalizing offset with
  | nil => exact h
  | cons piece pieces ih =>
    cases piece with
    | gap | statement => exact ih h
    | declaration text declaration =>
      obtain ⟨hd, hl⟩ := List.forall_mem_cons.mp h
      refine List.forall_mem_cons.mpr ⟨fun pattern hp => ?_, ih hl⟩
      have hw := hd pattern hp
      exact ⟨⟨hw.names.others, hw.names.named⟩, hw.barrel, hw.paths⟩

/-- A fixed source is read as the direct imports of the declarations that are replaced and as the
declarations that stay. -/
theorem importDeclarations_fixed {options : RuleOptions} {path source : Text}
    {declarations : List ImportDeclaration} {diagnostics : List Diagnostic}
    (hd : importDeclarations path source = .ok declarations)
    (hl : lintSource options path source = .ok diagnostics)
    (hw : AreWritable options declarations) (hs : options.SettlesStatements path source) :
    ∃ fixed found, fixSource options path source = .ok fixed ∧
      importDeclarations path fixed = .ok found ∧
      fixedImports? options declarations = some (found.map ImportDeclaration.imported) := by
  obtain ⟨pieces, hp, rfl⟩ := importDeclarations_eq_ok hd
  obtain ⟨-, fixed, hf, hfixed, -⟩ := fixSource_of_lint hp hl
  obtain ⟨pieces', hp', himports⟩ :=
    pieces?_fixed hp hf (areWritable_declarationsFrom hw) (hs pieces hp)
  refine ⟨fixed, _, hfixed, importDeclarations_of_pieces hp', ?_⟩
  rw [fixedImports?_declarationsFrom, himports, declarationsFrom_imported]

end DirectImports
