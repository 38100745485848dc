import DirectImports.Proofs.Lookahead
import DirectImports.Proofs.Written

/-! The statements that a fix leaves alone. What stands behind one changes from the first import on
that is replaced, and so it is read as before if its reader does not look behind the word `import`
there. -/

namespace DirectImports

def Piece.isReplaced (options : RuleOptions) : Piece → Bool
  | declaration _ found => (options.barrelOf? found).isSome
  | _ => false

/-- The text of pieces up to the first one that is replaced, with the word that it begins with;
nothing if none is replaced. -/
def textAhead? (options : RuleOptions) : List Piece → Option Text
  | [] => none
  | piece :: pieces =>
    if piece.isReplaced options then some "import ".toList
    else (textAhead? options pieces).map (piece.text ++ ·)

/-- A piece that, if it is a statement, is read to its end in front of a text that is cut off. -/
def Piece.IsSettledBefore (language : Language) (ahead : Text) : Piece → Prop
  | statement text => importHere? language (nextToken (text ++ ahead)) = none ∧
      settledLength? language (text ++ ahead) = some text.length
  | _ => True

instance (language : Language) (ahead : Text) (piece : Piece) :
    Decidable (piece.IsSettledBefore language ahead) :=
  match piece with
  | .statement _ => inferInstanceAs (Decidable (_ ∧ _))
  | .gap _ => .isTrue trivial
  | .declaration _ _ => .isTrue trivial

/-- Pieces whose statements are read to their ends without a look into the first import behind them
that is replaced. -/
def AreSettled (options : RuleOptions) (language : Language) : List Piece → Prop
  | [] => True
  | piece :: pieces =>
    (∀ ahead ∈ textAhead? options pieces, piece.IsSettledBefore language ahead) ∧
      AreSettled options language pieces

instance decidableAreSettled (options : RuleOptions) (language : Language) :
    (pieces : List Piece) → Decidable (AreSettled options language pieces)
  | [] => .isTrue trivial
  | _ :: pieces =>
    have := decidableAreSettled options language pieces
    inferInstanceAs (Decidable (_ ∧ AreSettled options language pieces))

def RuleOptions.SettlesStatements (options : RuleOptions) (path source : Text) : Prop :=
  ∀ pieces ∈ pieces? (Language.ofPath path) source,
    AreSettled options (Language.ofPath path) pieces

instance (options : RuleOptions) (path source : Text) :
    Decidable (options.SettlesStatements path source) :=
  inferInstanceAs (Decidable (∀ pieces ∈ pieces? (Language.ofPath path) source, _))

section

variable {options : RuleOptions} {piece : Piece} {pieces : List Piece} {first fixed : Text}

theorem textAhead?_none (h : textAhead? options (piece :: pieces) = none) :
    piece.isReplaced options = false ∧ textAhead? options pieces = none := by
  rw [textAhead?] at h
  split at h
  next => cases h
  next hr => exact ⟨eq_false_of_ne_true hr, Option.map_eq_none_iff.mp h⟩

theorem fixed?_of_kept (h : piece.isReplaced options = false) :
    piece.fixed? options = some piece.text := by
  cases piece with
  | gap | statement => rfl
  | declaration text found =>
    have hb : options.barrelOf? found = none := by simpa [Piece.isReplaced] using h
    simp [Piece.fixed?, hb, Piece.text]

theorem fixed?_of_replaced (h : piece.isReplaced options = true)
    (hf : piece.fixed? options = some first) : ∃ rest, first = "import ".toList ++ rest := by
  cases piece with
  | gap | statement => cases h
  | declaration text found =>
    have hb : (options.barrelOf? found).isSome := h
    obtain ⟨pattern, hp⟩ := Option.isSome_iff_exists.mp hb
    rw [Piece.fixed?, hp] at hf
    obtain ⟨texts, ht, rfl⟩ := Option.map_eq_some_iff.mp hf
    obtain ⟨rest, hj⟩ := joined_begins (barrelOf?_eq_some hp).2 ht
    exact ⟨rest, hj⟩

theorem fixedText?_of_kept (h : textAhead? options pieces = none) :
    fixedText? options pieces = some (textOf pieces) := by
  induction pieces with
  | nil => rfl
  | cons piece pieces ih =>
    obtain ⟨hr, h⟩ := textAhead?_none h
    simp [fixedText?, fixed?_of_kept hr, ih h, textOf]

/-- A fixed text goes on as the source does, up to the first word of what is replaced. -/
theorem fixedText?_ahead {ahead : Text} (ha : textAhead? options pieces = some ahead)
    (hf : fixedText? options pieces = some fixed) : ∃ later, fixed = ahead ++ later := by
  induction pieces generalizing ahead fixed with
  | nil => cases ha
  | cons piece pieces ih =>
    obtain ⟨first, later, hfirst, hlater, rfl⟩ := fixedText?_cons hf
    rw [textAhead?] at ha
    split at ha
    next hr =>
      obtain rfl := Option.some.inj ha
      obtain ⟨rest, rfl⟩ := fixed?_of_replaced hr hfirst
      exact ⟨rest ++ later, List.append_assoc ..⟩
    next hr =>
      obtain ⟨behind, hb, rfl⟩ := Option.map_eq_some_iff.mp ha
      obtain ⟨rest, rfl⟩ := ih hb hlater
      rw [fixed?_of_kept (eq_false_of_ne_true hr)] at hfirst
      obtain rfl := Option.some.inj hfirst
      exact ⟨rest, (List.append_assoc ..).symm⟩

end

/-- A statement is read as before in front of the fixed text. -/
theorem Reads.beginning?_fixed {options : RuleOptions} {language : Language}
    {text behind fixed : Text} {pieces : List Piece} (h : Reads language behind pieces)
    (hb : beginning? language (text ++ behind) = some (.statement text.length))
    (hs : ∀ ahead ∈ textAhead? options pieces,
      (Piece.statement text).IsSettledBefore language ahead)
    (hf : fixedText? options pieces = some fixed) :
    beginning? language (text ++ fixed) = some (.statement text.length) := by
  cases ha : textAhead? options pieces with
  | none =>
    rw [fixedText?_of_kept ha, h.text_eq] at hf
    obtain rfl := Option.some.inj hf
    exact hb
  | some ahead =>
    obtain ⟨hi, hl⟩ := hs ahead ha
    obtain ⟨later, rfl⟩ := fixedText?_ahead ha hf
    have hpos := (beginning?_statement hb).1
    rw [← List.append_assoc]
    exact beginning?_append hl hi (Nat.ne_of_gt hpos) later

/-- Pieces of which all that are replaced stand before the first statement. -/
def ImportsFirst (options : RuleOptions) : List Piece → Prop
  | [] => True
  | .statement _ :: pieces => textAhead? options pieces = none
  | .gap _ :: pieces => ImportsFirst options pieces
  | .declaration _ _ :: pieces => ImportsFirst options pieces

theorem areSettled_of_kept {options : RuleOptions} {language : Language} {pieces : List Piece}
    (h : textAhead? options pieces = none) : AreSettled options language pieces := by
  induction pieces with
  | nil => trivial
  | cons piece pieces ih =>
    have hn := (textAhead?_none h).2
    refine ⟨fun ahead ha => ?_, ih hn⟩
    rw [hn] at ha
    cases ha

theorem areSettled_of_importsFirst {options : RuleOptions} {language : Language}
    {pieces : List Piece} (h : ImportsFirst options pieces) :
    AreSettled options language pieces := by
  induction pieces with
  | nil => trivial
  | cons piece pieces ih =>
    cases piece with
    | gap | declaration => exact ⟨fun _ _ => trivial, ih h⟩
    | statement text =>
      have hn : textAhead? options pieces = none := h
      refine ⟨fun ahead ha => ?_, areSettled_of_kept hn⟩
      rw [hn] at ha
      cases ha

def RuleOptions.ImportsFirst (options : RuleOptions) (path source : Text) : Prop :=
  ∀ pieces ∈ pieces? (Language.ofPath path) source, DirectImports.ImportsFirst options pieces

theorem RuleOptions.ImportsFirst.settlesStatements {options : RuleOptions} {path source : Text}
    (h : options.ImportsFirst path source) : options.SettlesStatements path source :=
  fun pieces hp => areSettled_of_importsFirst (h pieces hp)

end DirectImports
