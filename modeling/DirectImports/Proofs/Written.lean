import DirectImports.Proofs.Fixing
import DirectImports.Proofs.Printing
import DirectImports.Proofs.Shape

/-! Reading the statements that replace a barrel import. They give back the bindings of that import,
each from the module of its own. -/

namespace DirectImports

/-- What a declaration imports, apart from its place. -/
structure Imported where
  source : Option Text
  specifiers : List Specifier
  isTypeOnly : Bool
deriving DecidableEq, Repr

def ImportDeclaration.imported (declaration : ImportDeclaration) : Imported :=
  ⟨declaration.source, declaration.specifiers, declaration.isTypeOnly⟩

/-- A written statement: it is read as its declaration, whatever follows. -/
structure IsStatement (typescript : Bool) (text : Text)
    (declaration : ImportDeclaration) : Prop where
  read : ∀ rest, readImport typescript (text ++ rest) = some (declaration, rest)
  begins : ∃ later, text = 'i' :: later

def directSpecifier (pattern : BarrelPattern) (binding : NamedBinding) : Specifier :=
  if (pattern.namedMatch? binding.importedName).isSome then
    .named binding.localName binding.localName false
  else .byDefault binding.localName

def directImported (pattern : BarrelPattern) (binding : NamedBinding) : Option Imported :=
  (pattern.directPath binding.importedName).map fun path =>
    ⟨some path, [directSpecifier pattern binding], binding.isTypeOnly⟩

/-- Whether the local name of a binding can stand in its direct import: any word can in braces. -/
def NamedBinding.IsNameable (pattern : BarrelPattern) (binding : NamedBinding) : Prop :=
  if (pattern.namedMatch? binding.importedName).isSome then isPlainWord binding.localName = true
  else IsBindingName binding.localName

instance (pattern : BarrelPattern) (binding : NamedBinding) :
    Decidable (binding.IsNameable pattern) :=
  inferInstanceAs (Decidable (if (pattern.namedMatch? binding.importedName).isSome then _ else _))

structure NamedBinding.IsWritable (pattern : BarrelPattern) (typescript : Bool)
    (binding : NamedBinding) : Prop where
  types : binding.isTypeOnly = true → typescript = true
  name : binding.IsNameable pattern
  path : ∀ path ∈ pattern.directPath binding.importedName, IsQuotable path

theorem importStatement_begins (isTypeOnly : Bool) (clause path : Text) :
    ∃ later, importStatement isTypeOnly clause path = 'i' :: later := by
  unfold importStatement
  exact ⟨_, rfl⟩

theorem directStatement_written {typescript : Bool} {pattern : BarrelPattern}
    {binding : NamedBinding} {text : Text} (h : directStatement pattern binding = some text)
    (hw : binding.IsWritable pattern typescript) :
    ∃ declaration, IsStatement typescript text declaration ∧
      directImported pattern binding = some declaration.imported := by
  rw [directStatement_eq] at h
  obtain ⟨path, hp, rfl⟩ := Option.map_eq_some_iff.mp h
  have hq := hw.path path hp
  have hb := importStatement_begins binding.isTypeOnly (directClause pattern binding) path
  have hname := hw.name
  unfold directImported directSpecifier
  rw [hp]
  unfold directClause at hb ⊢
  unfold NamedBinding.IsNameable at hname
  split
  next hm =>
    rw [if_pos hm] at hb hname
    exact ⟨_, ⟨fun rest => readImport_braced rest hw.types hname hq, hb⟩, rfl⟩
  next hm =>
    rw [if_neg hm] at hb hname
    exact ⟨_, ⟨fun rest => readImport_byDefault rest hw.types hname hq, hb⟩, rfl⟩

abbrev Statements :=
  List (Text × ImportDeclaration)

def Statements.texts (statements : Statements) : List Text :=
  statements.map Prod.fst

def Statements.imported (statements : Statements) : List Imported :=
  statements.map fun statement => statement.2.imported

def Statements.AreWritten (typescript : Bool) (statements : Statements) : Prop :=
  ∀ statement ∈ statements, IsStatement typescript statement.1 statement.2

theorem directStatements_written {typescript : Bool} {pattern : BarrelPattern}
    {bindings : List NamedBinding} {texts : List Text}
    (h : bindings.mapM (directStatement pattern) = some texts)
    (hw : ∀ binding ∈ bindings, binding.IsWritable pattern typescript) :
    ∃ statements : Statements, statements.texts = texts ∧ statements.AreWritten typescript ∧
      bindings.mapM (directImported pattern) = some statements.imported := by
  induction bindings generalizing texts with
  | nil =>
    obtain rfl : [] = texts := Option.some.inj h
    exact ⟨[], rfl, by simp [Statements.AreWritten], rfl⟩
  | cons binding bindings ih =>
    simp only [List.mapM_cons, Option.bind_eq_bind, Option.bind_eq_some_iff] at h
    obtain ⟨text, ht, later, hl, h⟩ := h
    obtain rfl := Option.some.inj h
    obtain ⟨hb, hbs⟩ := List.forall_mem_cons.mp hw
    obtain ⟨declaration, hs, hi⟩ := directStatement_written ht hb
    obtain ⟨statements, rfl, hall, him⟩ := ih hl hbs
    refine ⟨(text, declaration) :: statements, rfl, List.forall_mem_cons.mpr ⟨hs, hall⟩, ?_⟩
    simp [List.mapM_cons, hi, him, Statements.imported]

/-- The specifiers that stay on the barrel. -/
def ImportDeclaration.others (declaration : ImportDeclaration) : List Specifier :=
  declaration.specifiers.filter fun specifier => !specifier.isNamed

/-- What the statement that stays on the barrel imports. -/
def ImportDeclaration.residualImported (declaration : ImportDeclaration) (barrel : Text) :
    List Imported :=
  if declaration.others.isEmpty then []
  else [⟨some barrel, declaration.others, declaration.isTypeOnly⟩]

def Specifier.clause : Specifier → Text
  | named .. => []
  | byDefault localName => localName
  | entire localName => "* as ".toList ++ localName

theorem otherClauses_eq (declaration : ImportDeclaration) :
    declaration.otherClauses = declaration.others.map Specifier.clause := by
  unfold ImportDeclaration.otherClauses ImportDeclaration.others
  induction declaration.specifiers with
  | nil => rfl
  | cons specifier specifiers ih =>
    cases specifier with
    | named => exact ih
    | byDefault localName => exact congrArg (localName :: ·) ih
    | entire localName => exact congrArg (("* as ".toList ++ localName) :: ·) ih

theorem residual?_written {typescript : Bool} {declaration : ImportDeclaration} {barrel : Text}
    (hs : HasShape typescript declaration.isTypeOnly declaration.specifiers)
    (hn : declaration.specifiers.any Specifier.isNamed = true)
    (hl : ∀ specifier ∈ declaration.others, IsBindingName specifier.localName)
    (hb : IsQuotable barrel) :
    ∃ statements : Statements, statements.texts = (declaration.residual? barrel).toList ∧
      statements.AreWritten typescript ∧
      statements.imported = declaration.residualImported barrel := by
  have hclauses := otherClauses_eq declaration
  rcases hs.others hn with ho | ⟨name, ho⟩
  · have ho' : declaration.others = [] := ho
    refine ⟨[], ?_, by simp [Statements.AreWritten], ?_⟩
    · rw [ho'] at hclauses
      simp [ImportDeclaration.residual?, hclauses, Statements.texts]
    · simp [ImportDeclaration.residualImported, ho', Statements.imported]
  · have ho' : declaration.others = [.byDefault name] := ho
    have hname : IsBindingName name := hl (.byDefault name) (by simp [ho'])
    rw [ho'] at hclauses
    have hr : declaration.residual? barrel =
        some (importStatement declaration.isTypeOnly name barrel) := by
      simp [ImportDeclaration.residual?, hclauses, joinWith, Specifier.clause]
    refine ⟨[(_, _)], by rw [hr]; rfl, List.forall_mem_singleton.mpr
      ⟨fun rest => readImport_byDefault rest hs.types hname hb, importStatement_begins _ _ _⟩, ?_⟩
    simp [ImportDeclaration.residualImported, ho', Statements.imported,
      ImportDeclaration.imported]

/-- A declaration whose local names can stand in its direct imports. -/
structure ImportDeclaration.IsNameable (declaration : ImportDeclaration)
    (pattern : BarrelPattern) : Prop where
  others : ∀ specifier ∈ declaration.others, IsBindingName specifier.localName
  named : ∀ binding ∈ declaration.namedBindings, binding.IsNameable pattern

instance (declaration : ImportDeclaration) (pattern : BarrelPattern) :
    Decidable (declaration.IsNameable pattern) :=
  decidable_of_iff ((∀ specifier ∈ declaration.others, IsBindingName specifier.localName) ∧
      ∀ binding ∈ declaration.namedBindings, binding.IsNameable pattern)
    ⟨fun h => ⟨h.1, h.2⟩, fun h => ⟨h.others, h.named⟩⟩

structure ImportDeclaration.IsWritable (declaration : ImportDeclaration)
    (pattern : BarrelPattern) : Prop where
  names : declaration.IsNameable pattern
  barrel : IsQuotable pattern.barrel
  paths : ∀ binding ∈ declaration.namedBindings,
    ∀ path ∈ pattern.directPath binding.importedName, IsQuotable path

instance (declaration : ImportDeclaration) (pattern : BarrelPattern) :
    Decidable (declaration.IsWritable pattern) :=
  decidable_of_iff (declaration.IsNameable pattern ∧ IsQuotable pattern.barrel ∧
      ∀ binding ∈ declaration.namedBindings,
        ∀ path ∈ pattern.directPath binding.importedName, IsQuotable path)
    ⟨fun h => ⟨h.1, h.2.1, h.2.2⟩, fun h => ⟨h.names, h.barrel, h.paths⟩⟩

theorem namedBindings_writable {typescript : Bool} {declaration : ImportDeclaration}
    {pattern : BarrelPattern}
    (hs : HasShape typescript declaration.isTypeOnly declaration.specifiers)
    (hw : declaration.IsWritable pattern) :
    ∀ binding ∈ declaration.namedBindings, binding.IsWritable pattern typescript := by
  intro binding hb
  obtain ⟨specifier, hm, hb'⟩ := List.mem_filterMap.mp hb
  cases specifier with
  | named importedName localName isType =>
    obtain rfl := Option.some.inj hb'
    refine ⟨fun ht => ?_, hw.names.named _ hb, hw.paths _ hb⟩
    rcases Bool.or_eq_true_iff.mp ht with ht | ht
    · exact hs.types ht
    · exact hs.isType _ hm ht
  | byDefault | entire => simp at hb'

/-- The replacement of a declaration consists of statements, one for the barrel if anything stays
there and one for each named binding. -/
theorem directStatements_eq {typescript : Bool} {declaration : ImportDeclaration}
    {pattern : BarrelPattern} {texts : List Text}
    (hs : HasShape typescript declaration.isTypeOnly declaration.specifiers)
    (hn : declaration.specifiers.any Specifier.isNamed = true)
    (hw : declaration.IsWritable pattern)
    (h : declaration.directStatements pattern = some texts) :
    ∃ (statements : Statements) (direct : List Imported), statements ≠ [] ∧
      statements.texts = texts ∧ statements.AreWritten typescript ∧
      declaration.namedBindings.mapM (directImported pattern) = some direct ∧
      statements.imported = declaration.residualImported pattern.barrel ++ direct := by
  obtain ⟨found, hm, h⟩ := Option.bind_eq_some_iff.mp h
  obtain rfl := Option.some.inj h
  obtain ⟨residual, hr, hrall, hri⟩ := residual?_written hs hn hw.names.others hw.barrel
  obtain ⟨direct, rfl, hdall, hdi⟩ :=
    directStatements_written hm (namedBindings_writable hs hw)
  refine ⟨residual ++ direct, direct.imported, ?_, ?_, ?_, hdi, ?_⟩
  · have hl := length_of_mapM hm
    have hb := List.length_pos_iff.mpr (namedBindings_ne_nil hn)
    have hne : direct ≠ [] := by
      rintro rfl
      rw [← hl] at hb
      exact absurd hb (by simp [Statements.texts])
    simp [hne]
  · simp [Statements.texts, ← hr]
  · exact List.forall_mem_append.mpr ⟨hrall, hdall⟩
  · simp [Statements.imported, ← hri]

def Statements.pieces (gap : Text) : Statements → List Piece
  | [] => []
  | (text, declaration) :: later => .gap gap :: .declaration text declaration :: pieces ['\n'] later

theorem IsStatement.isTrimmed {typescript : Bool} {text : Text} {declaration : ImportDeclaration}
    (h : IsStatement typescript text declaration) (rest : Text) : IsTrimmed (text ++ rest) := by
  obtain ⟨later, rfl⟩ := h.begins
  exact isTrimmed_cons (by decide) rfl rfl

/-- Statements on lines of their own are read one after the other. -/
theorem Reads.statements {language : Language} {behind : Text} {pieces : List Piece}
    (hl : Reads language behind pieces) {statements : Statements} (hne : statements ≠ [])
    (hall : statements.AreWritten language.typescript) {gap : Text}
    (hg : ∀ code, IsTrimmed code → (skipTrivia (gap ++ code)).2 = code) :
    Reads language (gap ++ (joinWith ['\n'] statements.texts ++ behind))
      (statements.pieces gap ++ pieces) := by
  induction statements generalizing gap with
  | nil => exact absurd rfl hne
  | cons statement later ih =>
    obtain ⟨text, declaration⟩ := statement
    obtain ⟨hs, hlater⟩ := List.forall_mem_cons.mp hall
    cases later with
    | nil =>
      have hj : joinWith ['\n'] (Statements.texts [(text, declaration)]) = text := by
        simp [joinWith, Statements.texts]
      rw [hj]
      exact .declaration (hg _ (hs.isTrimmed behind)) (hs.read behind) hl
    | cons next later =>
      have hj : joinWith ['\n'] (Statements.texts ((text, declaration) :: next :: later)) =
          text ++ (['\n'] ++ joinWith ['\n'] (Statements.texts (next :: later))) :=
        joinWith_cons_cons _ _ _ _
      have hnl : ∀ code, IsTrimmed code → (skipTrivia (['\n'] ++ code)).2 = code := by
        intro code hc
        simp [skipTrivia, skipTriviaFrom_plain_cons, isLineEnd, hc true]
      have hread := ih (by simp) hlater hnl
      rw [hj, List.append_assoc, List.append_assoc]
      exact .declaration (hg _ (hs.isTrimmed _)) (hs.read _) hread

def Piece.declaration? : Piece → Option ImportDeclaration
  | declaration _ found => some found
  | _ => none

theorem declarationsFrom_imported (offset : Nat) (pieces : List Piece) :
    (declarationsFrom offset pieces).map ImportDeclaration.imported =
      (pieces.filterMap Piece.declaration?).map ImportDeclaration.imported := by
  induction pieces generalizing offset with
  | nil => rfl
  | cons piece pieces ih =>
    cases piece with
    | gap | statement => exact ih _
    | declaration text declaration => exact congrArg (declaration.imported :: ·) (ih _)

theorem Statements.pieces_declarations (gap : Text) (statements : Statements) :
    (statements.pieces gap).filterMap Piece.declaration? = statements.map Prod.snd := by
  induction statements generalizing gap with
  | nil => rfl
  | cons statement later ih => exact congrArg (statement.2 :: ·) (ih _)

theorem reads_nil (language : Language) : Reads language [] [.gap []] :=
  .finish rfl

theorem joinWith_begins {typescript : Bool} {statements : Statements} (hne : statements ≠ [])
    (hall : statements.AreWritten typescript) :
    ∃ later, joinWith ['\n'] statements.texts = 'i' :: later := by
  cases statements with
  | nil => exact absurd rfl hne
  | cons statement statements =>
    obtain ⟨later, hb⟩ := (hall statement (.head _)).begins
    cases statements with
    | nil => exact ⟨later, by simp [joinWith, Statements.texts, hb]⟩
    | cons next statements =>
      exact ⟨later ++ (['\n'] ++ joinWith ['\n'] (Statements.texts (next :: statements))),
        (joinWith_cons_cons _ _ _ _).trans (by rw [hb]; rfl)⟩

theorem importDeclarations_statements {path : Text} {statements : Statements}
    (hne : statements ≠ [])
    (hall : statements.AreWritten (Language.ofPath path).typescript) :
    ∃ found, importDeclarations path (joinWith ['\n'] statements.texts) = .ok found ∧
      found.map ImportDeclaration.imported = statements.imported := by
  have hstart : ∀ code, IsTrimmed code → (skipTrivia ([] ++ code)).2 = code := by
    intro code hc
    rw [List.nil_append, hc.skipTrivia]
  have hread := (reads_nil (Language.ofPath path)).statements hne hall hstart
  rw [List.nil_append, List.append_nil] at hread
  obtain ⟨later, hb⟩ := joinWith_begins hne hall
  have hskip : skipInterpreter (joinWith ['\n'] statements.texts) =
      joinWith ['\n'] statements.texts := by
    rw [hb]
    rfl
  have hp := pieces?_eq_some_iff.mpr ⟨[], _, _, (List.nil_append _).symm, hskip, rfl, hread⟩
  have hfound : (Piece.gap [] :: (statements.pieces [] ++ [.gap []])).filterMap
      Piece.declaration? = statements.map Prod.snd := by
    change (statements.pieces [] ++ [Piece.gap []]).filterMap _ = _
    rw [List.filterMap_append, Statements.pieces_declarations]
    exact List.append_nil _
  refine ⟨_, importDeclarations_of_pieces hp, ?_⟩
  rw [declarationsFrom_imported, hfound, List.map_map]
  rfl

theorem Reads.shape {language : Language} {text : Text} {pieces : List Piece}
    (h : Reads language text pieces) :
    ∀ declaration ∈ pieces.filterMap Piece.declaration?,
      HasShape language.typescript declaration.isTypeOnly declaration.specifiers := by
  induction h with
  | finish => simp [Piece.declaration?]
  | declaration _ hb _ ih => exact List.forall_mem_cons.mpr ⟨readImport_shape hb, ih⟩
  | statement _ _ _ ih => exact ih

theorem mem_declarationsFrom {offset : Nat} {pieces : List Piece}
    {declaration : ImportDeclaration} (h : declaration ∈ declarationsFrom offset pieces) :
    ∃ found ∈ pieces.filterMap Piece.declaration?, found.imported = declaration.imported := by
  have hm := List.mem_map_of_mem (f := ImportDeclaration.imported) h
  rw [declarationsFrom_imported] at hm
  exact List.mem_map.mp hm

theorem importDeclarations_shape {path source : Text} {declarations : List ImportDeclaration}
    (h : importDeclarations path source = .ok declarations) :
    ∀ declaration ∈ declarations, HasShape (Language.ofPath path).typescript
      declaration.isTypeOnly declaration.specifiers := by
  intro declaration hd
  obtain ⟨pieces, hp, rfl⟩ := importDeclarations_eq_ok h
  obtain ⟨line, rest, later, -, -, rfl, hl⟩ := pieces?_eq_some_iff.mp hp
  obtain ⟨found, hf, hi⟩ := mem_declarationsFrom hd
  have hs := hl.shape found hf
  obtain ⟨-, hspecifiers, htype⟩ := Imported.mk.inj hi
  rwa [hspecifiers, htype] at hs

/-- The text that replaces a declaration is read as the direct imports of its named bindings, in
their order, behind an import of the other bindings from the barrel if there are any. -/
theorem replacement_reads_back {path source target : Text}
    {declarations : List ImportDeclaration} {declaration : ImportDeclaration}
    {pattern : BarrelPattern} (hp : pattern.ReturnsNormally)
    (hd : importDeclarations path source = .ok declarations) (hm : declaration ∈ declarations)
    (hn : declaration.specifiers.any Specifier.isNamed = true)
    (hw : declaration.IsWritable pattern)
    (ht : (Language.ofPath target).typescript = true) :
    ∃ text direct found, declaration.replacement pattern = some (some text) ∧
      declaration.namedBindings.mapM (directImported pattern) = some direct ∧
      importDeclarations target text = .ok found ∧
      found.map ImportDeclaration.imported =
        declaration.residualImported pattern.barrel ++ direct := by
  have hs := importDeclarations_shape hd declaration hm
  obtain ⟨texts, htexts⟩ := Option.isSome_iff_exists.mp (directStatements_isSome hp declaration)
  have hs' : HasShape (Language.ofPath target).typescript declaration.isTypeOnly
      declaration.specifiers := ht ▸ hs.typed
  obtain ⟨statements, direct, hne, rfl, hall, hdirect, himported⟩ :=
    directStatements_eq hs' hn hw htexts
  obtain ⟨found, hfound, hi⟩ := importDeclarations_statements hne hall
  exact ⟨_, direct, found, by rw [replacement_eq pattern hn, htexts]; rfl, hdirect, hfound,
    hi.trans himported⟩

/-- The names that end in `Type` stay named. -/
def suffixedPattern : BarrelPattern where
  barrel := ['l']
  transformPattern := "l/\x7b\x7bimportName\x7d\x7d".toList
  transformImportName := some .lowercase
  namedExports := some ⟨["Type".toList], none, none⟩

theorem suffixedPattern_hasNoFunctions : suffixedPattern.HasNoFunctions :=
  ⟨fun transform => by simp [suffixedPattern], fun exports he => by
    obtain rfl := Option.some.inj he
    rfl⟩

theorem mixedDeclaration_reads_back : ∃ text direct found,
    mixedDeclaration.replacement suffixedPattern = some (some text) ∧
      mixedDeclaration.namedBindings.mapM (directImported suffixedPattern) = some direct ∧
      importDeclarations "direct.ts".toList text = .ok found ∧
      found.map ImportDeclaration.imported =
        mixedDeclaration.residualImported suffixedPattern.barrel ++ direct :=
  replacement_reads_back suffixedPattern_hasNoFunctions.returnsNormally mixedSource_read
    (.head _) (by decide) (by decide +kernel) (by decide)

end DirectImports
