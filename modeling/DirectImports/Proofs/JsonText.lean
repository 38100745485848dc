import Mathlib.Data.List.Forall2
import DirectImports.Json.Record
import DirectImports.Proofs.Codes

/-! JSON values and the texts that they may be written as. Strings are read back from any writing,
and a list from any writing of values that are. -/

namespace DirectImports

/-- A JSON value, in which the members of an object keep their order and a number its digits. -/
inductive JsonTree where
  | null
  | bool (value : Bool)
  | number (digits : Text)
  | string (text : Text)
  | list (values : List JsonTree)
  | object (members : List (Text × JsonTree))

def IsBlank (text : Text) : Prop :=
  ∀ c ∈ text, JsonReader.isSpace c = true

def jsonEscapes : List (Char × Char) :=
  [('"', '"'), ('\\', '\\'), ('/', '/'), ('b', '\x08'), ('f', '\x0c'), ('n', '\n'), ('r', '\r'),
    ('t', '\t')]

/-- What stands for a character behind a backslash. -/
inductive JsonEscape : Char → Text → Prop
  | letter {letter c : Char} (h : (letter, c) ∈ jsonEscapes) : JsonEscape c [letter]
  | code {c : Char} {digits : Text} (h : FourDigits c.toNat digits) : JsonEscape c ('u' :: digits)
  | halves {c : Char} {high low : Nat} {first second : Text} (hc : AreHalves c high low)
      (hf : FourDigits high first) (hs : FourDigits low second) :
      JsonEscape c ('u' :: (first ++ '\\' :: 'u' :: second))

/-- A text, and what may stand for it between quotation marks. -/
inductive StringText : Text → Text → Prop
  | nil : StringText [] []
  | plain {c : Char} {text written : Text} (hq : c ≠ '"') (hb : c ≠ '\\') (hc : 0x20 ≤ c.toNat)
      (later : StringText text written) : StringText (c :: text) (c :: written)
  | escape {c : Char} {escape text written : Text} (he : JsonEscape c escape)
      (later : StringText text written) :
      StringText (c :: text) ('\\' :: (escape ++ written))

def AreDigits (digits : Text) : Prop :=
  digits ≠ [] ∧ digits.all Char.isDigit = true

/-- The digits of a number: its sign, a whole part without a zero in front, a fraction and an
exponent. -/
structure NumberText (sign whole fraction exponent : Text) : Prop where
  sign : sign = [] ∨ sign = ['-']
  whole : AreDigits whole ∧ (whole.head? = some '0' → whole = ['0'])
  fraction : fraction = [] ∨ ∃ digits, AreDigits digits ∧ fraction = '.' :: digits
  exponent : exponent = [] ∨ ∃ mark sign digits, (mark = 'e' ∨ mark = 'E') ∧
    (sign = [] ∨ sign = ['+'] ∨ sign = ['-']) ∧ AreDigits digits ∧
      exponent = mark :: (sign ++ digits)

/-- Items with commas between them, up to the bracket behind them. -/
inductive ItemsText {ι : Type} (writes : ι → Text → Prop) : Bool → List ι → Text → Prop
  | nil {isFirst : Bool} {blank : Text} (hb : IsBlank blank) : ItemsText writes isFirst [] blank
  | first {blank text rest : Text} {item : ι} {items : List ι} (hb : IsBlank blank)
      (hw : writes item text) (later : ItemsText writes false items rest) :
      ItemsText writes true (item :: items) (blank ++ (text ++ rest))
  | next {blank blank' text rest : Text} {item : ι} {items : List ι} (hb : IsBlank blank)
      (hb' : IsBlank blank') (hw : writes item text) (later : ItemsText writes false items rest) :
      ItemsText writes false (item :: items) (blank ++ ',' :: (blank' ++ (text ++ rest)))

inductive MemberText (writes : JsonTree → Text → Prop) : Text × JsonTree → Text → Prop
  | member {key written blank blank' text : Text} {value : JsonTree} (hk : StringText key written)
      (hb : IsBlank blank) (hb' : IsBlank blank') (hw : writes value text) :
      MemberText writes (key, value)
        ('"' :: (written ++ '"' :: (blank ++ ':' :: (blank' ++ text))))

/-- A value, and what it may be written as. -/
inductive JsonTree.IsWritten : JsonTree → Text → Prop
  | null : IsWritten .null ['n', 'u', 'l', 'l']
  | true : IsWritten (.bool true) ['t', 'r', 'u', 'e']
  | false : IsWritten (.bool false) ['f', 'a', 'l', 's', 'e']
  | number {sign whole fraction exponent : Text} (h : NumberText sign whole fraction exponent) :
      IsWritten (.number (sign ++ (whole ++ (fraction ++ exponent))))
        (sign ++ (whole ++ (fraction ++ exponent)))
  | string {text written : Text} (h : StringText text written) :
      IsWritten (.string text) ('"' :: (written ++ ['"']))
  | list {values : List JsonTree} {text : Text} (h : ItemsText IsWritten true values text) :
      IsWritten (.list values) ('[' :: (text ++ [']']))
  | object {members : List (Text × JsonTree)} {text : Text}
      (h : ItemsText (MemberText IsWritten) true members text) :
      IsWritten (.object members) ('\x7b' :: (text ++ ['\x7d']))

/-- The text of a document, in which blanks may stand around its value. -/
def JsonTree.IsDocument (tree : JsonTree) (text : Text) : Prop :=
  ∃ before written after, IsBlank before ∧ tree.IsWritten written ∧ IsBlank after ∧
    text = before ++ (written ++ after)

inductive JsonType where
  | null
  | boolean
  | number
  | string
  | list
  | object
deriving DecidableEq, Repr

def JsonTree.type : JsonTree → JsonType
  | null => .null
  | bool _ => .boolean
  | number _ => .number
  | string _ => .string
  | list _ => .list
  | object _ => .object

/-- The characters that a value of a type may begin with. -/
def JsonType.openings : JsonType → List Char
  | null => ['n']
  | boolean => ['t', 'f']
  | number => ['-', '0', '1', '2', '3', '4', '5', '6', '7', '8', '9']
  | string => ['"']
  | list => ['[']
  | object => ['\x7b']

theorem JsonType.openings_injective {a b : JsonType} {c : Char} (ha : c ∈ a.openings)
    (hb : c ∈ b.openings) : a = b := by
  have hall : (a.openings.all fun c => !b.openings.contains c || a == b) = true := by
    cases a <;> cases b <;> rfl
  have hc := List.all_eq_true.mp hall c ha
  simpa [hb] using hc

theorem JsonType.openings_props {type : JsonType} {c : Char} (h : c ∈ type.openings) :
    JsonReader.isSpace c = false ∧ c ≠ ']' ∧ c ≠ ',' := by
  have hall : (type.openings.all fun c =>
      !JsonReader.isSpace c && c != ']' && c != ',') = true := by
    cases type <;> rfl
  have hc := List.all_eq_true.mp hall c h
  simpa [and_assoc] using hc

theorem isDigit_openings {c : Char} (h : c.isDigit = true) : c ∈ JsonType.number.openings := by
  have hall : ∀ n ∈ List.range' 48 10, Char.ofNat n ∈ JsonType.number.openings := by decide
  have hc := hall c.toNat
  rw [Char.ofNat_toNat] at hc
  refine hc ?_
  simp only [Char.isDigit, Bool.and_eq_true, decide_eq_true_eq] at h
  have hlow : 48 ≤ c.toNat := h.1
  have hhigh : c.toNat ≤ 57 := h.2
  rw [List.mem_range'_1]
  omega

theorem JsonTree.IsWritten.begins {tree : JsonTree} {text : Text} (h : tree.IsWritten text) :
    ∃ c rest, text = c :: rest ∧ c ∈ tree.type.openings := by
  cases h with
  | @number sign whole _ _ h =>
    obtain ⟨hs, ⟨⟨hne, hd⟩, -⟩, -, -⟩ := h
    rcases hs with rfl | rfl
    · obtain ⟨c, whole, rfl⟩ := List.exists_cons_of_ne_nil hne
      have hc := (List.all_eq_true.mp hd) c (.head _)
      exact ⟨c, _, rfl, isDigit_openings hc⟩
    · exact ⟨'-', _, rfl, .head _⟩
  | false => exact ⟨_, _, rfl, .tail _ (.head _)⟩
  | _ => exact ⟨_, _, rfl, .head _⟩

namespace JsonReader

variable {α β : Type} {text rest blank : Text}

theorem bind_of_ok {x : JsonReader α} {a : α} (h : x text = .ok (a, rest))
    (f : α → JsonReader β) : (x >>= f) text = f a rest := by
  show StateT.bind x f text = f a rest
  simp only [StateT.bind, h]
  rfl

theorem bind_eq_ok {x : JsonReader α} {f : α → JsonReader β} {result : β × Text} :
    (x >>= f) text = .ok result ↔
      ∃ a rest, x text = .ok (a, rest) ∧ f a rest = .ok result := by
  constructor
  · intro h
    cases hx : x text with
    | error problem =>
      have hbind : (x >>= f) text = .error problem := by
        show StateT.bind x f text = .error problem
        simp only [StateT.bind, hx]
        rfl
      rw [hbind] at h
      cases h
    | ok read =>
      rw [bind_of_ok hx] at h
      exact ⟨_, _, rfl, h⟩
  · rintro ⟨a, rest, hx, h⟩
    rw [bind_of_ok hx, h]

theorem pure_eq_ok {a : α} {result : α × Text} :
    (pure a : JsonReader α) text = .ok result ↔ result = (a, text) := by
  constructor
  · intro h
    exact (Except.ok.inj h).symm
  · rintro rfl
    rfl

theorem get_eq (text : Text) : (get : JsonReader Text) text = .ok (text, text) :=
  rfl

theorem dropWhile_blank (hb : IsBlank blank) (text : Text) :
    (blank ++ text).dropWhile isSpace = text.dropWhile isSpace := by
  induction blank with
  | nil => rfl
  | cons c blank ih =>
    obtain ⟨hc, hb⟩ := List.forall_mem_cons.mp hb
    simpa [hc] using ih hb

theorem peek_blank {c : Char} (hb : IsBlank blank) (hc : isSpace c = false) (text : Text) :
    peek (blank ++ c :: text) = .ok (some c, c :: text) := by
  have hdrop : (blank ++ c :: text).dropWhile isSpace = c :: text := by
    rw [dropWhile_blank hb]
    simp [hc]
  show Except.ok _ = _
  rw [hdrop]
  rfl

theorem beginValue_blank {c : Char} (hb : IsBlank blank) (hc : isSpace c = false) (text : Text) :
    beginValue (blank ++ c :: text) = .ok (c, c :: text) := by
  rw [beginValue, bind_of_ok (peek_blank hb hc text)]
  rfl

theorem skip_cons (c : Char) (text : Text) : skip (c :: text) = .ok ((), text) :=
  rfl

theorem readRest_append (expected text : Text) :
    readRest expected (expected ++ text) = .ok ((), text) := by
  induction expected with
  | nil => rfl
  | cons c expected ih => simpa [readRest] using ih

theorem mismatch_not_ok (expected : ExpectedType) (c : Char) (result : α × Text) :
    mismatch expected c text ≠ .ok result := by
  intro h
  obtain ⟨_, _, -, hthrow⟩ := bind_eq_ok.mp h
  cases hthrow

theorem readHex_digits {code : Nat} {digits : Text} (h : FourDigits code digits) (text : Text) :
    readHex (digits ++ text) = .ok (code, text) := by
  obtain ⟨ha, hb, hc, hd⟩ := h
  simp [readHex, ha, hb, hc, hd]
  rfl

theorem readUnicode_code {c : Char} {digits : Text} (h : FourDigits c.toNat digits)
    (text : Text) : readUnicode (digits ++ text) = .ok (c, text) := by
  have hc := toNat_not_half c
  have htrailing : isTrailingSurrogate c.toNat = false := by
    simp only [isTrailingSurrogate, Bool.and_eq_false_iff, decide_eq_false_iff_not]
    omega
  have hleading : isLeadingSurrogate c.toNat = false := by
    simp only [isLeadingSurrogate, Bool.and_eq_false_iff, decide_eq_false_iff_not]
    omega
  rw [readUnicode, bind_of_ok (readHex_digits h text)]
  simp only [htrailing, hleading, Bool.false_eq_true, if_false, Char.ofNat_toNat]
  rfl

theorem readUnicode_halves {c : Char} {high low : Nat} {first second : Text}
    (hc : AreHalves c high low) (hf : FourDigits high first) (hs : FourDigits low second)
    (text : Text) :
    readUnicode (first ++ '\\' :: 'u' :: (second ++ text)) = .ok (c, text) := by
  obtain ⟨hhigh, hlow, hcode⟩ := hc
  have htrailing : isTrailingSurrogate high = false := by
    simp only [isTrailingSurrogate, Bool.and_eq_false_iff, decide_eq_false_iff_not]
    omega
  have hleading : isLeadingSurrogate high = true := by
    simp only [isLeadingSurrogate, Bool.and_eq_true, decide_eq_true_eq]
    exact hhigh
  have htrailing' : isTrailingSurrogate low = true := by
    simp only [isTrailingSurrogate, Bool.and_eq_true, decide_eq_true_eq]
    exact hlow
  have hmark (mark : Char) (rest : Text) :
      readSurrogateMark mark (mark :: rest) = .ok ((), rest) := by
    simp [readSurrogateMark]
    rfl
  rw [readUnicode, bind_of_ok (readHex_digits hf _)]
  simp only [htrailing, hleading, Bool.false_eq_true, if_false, if_true]
  rw [bind_of_ok (hmark _ _), bind_of_ok (hmark _ _), bind_of_ok (readHex_digits hs _)]
  simp only [htrailing', if_true, ← hcode, Char.ofNat_toNat]
  rfl

theorem readEscape_written {c : Char} {escape : Text} (h : JsonEscape c escape) (text : Text) :
    readEscape (escape ++ text) = .ok (c, text) := by
  cases h with
  | letter h =>
    simp only [jsonEscapes, List.mem_cons, Prod.mk.injEq, List.not_mem_nil, or_false] at h
    rcases h with ⟨rfl, rfl⟩ | ⟨rfl, rfl⟩ | ⟨rfl, rfl⟩ | ⟨rfl, rfl⟩ | ⟨rfl, rfl⟩ | ⟨rfl, rfl⟩ |
      ⟨rfl, rfl⟩ | ⟨rfl, rfl⟩
    all_goals rfl
  | code h => exact readUnicode_code h text
  | halves hc hf hs =>
    simp only [List.cons_append, List.append_assoc]
    exact readUnicode_halves hc hf hs text

theorem readCharacters_written {written : Text} {fuel : Nat} (h : StringText text written)
    (hf : written.length < fuel) (rest : Text) :
    readCharacters fuel (written ++ '"' :: rest) = .ok (text, rest) := by
  induction h generalizing fuel with
  | nil =>
    obtain ⟨fuel, rfl⟩ := Nat.exists_eq_add_one_of_ne_zero (Nat.ne_zero_of_lt hf)
    rfl
  | @plain c text written hq hb hc _ ih =>
    obtain ⟨fuel, rfl⟩ := Nat.exists_eq_add_one_of_ne_zero (Nat.ne_zero_of_lt hf)
    have hlater := ih (Nat.lt_of_succ_lt_succ hf)
    have hcontrol : ¬c.toNat < 0x20 := Nat.not_lt.mpr hc
    simp only [List.cons_append, readCharacters, if_neg hq, if_neg hb, if_neg hcontrol, hlater]
    rfl
  | @escape c escape text written he _ ih =>
    obtain ⟨fuel, rfl⟩ := Nat.exists_eq_add_one_of_ne_zero (Nat.ne_zero_of_lt hf)
    have hlt : written.length < fuel := by
      simp only [List.length_cons, List.length_append] at hf
      omega
    have hlater := ih hlt
    have hescape := readEscape_written he (written ++ '"' :: rest)
    have hq : '\\' ≠ '"' := by decide
    simp only [List.cons_append, List.append_assoc, readCharacters, if_neg hq, if_true, hescape]
    show (readCharacters fuel (written ++ '"' :: rest) >>= _) = _
    rw [hlater]
    rfl

theorem readQuoted_written {written : Text} (h : StringText text written) (rest : Text) :
    readQuoted ('"' :: (written ++ '"' :: rest)) = .ok (text, rest) := by
  have hf : written.length < ('"' :: (written ++ '"' :: rest)).length := by
    simp only [List.length_cons, List.length_append]
    omega
  exact readCharacters_written h hf rest

end JsonReader

/-- A reader that gives the same for every writing of a value, and what it gives. -/
def Decodes {α : Type} (read : JsonReader α) (means : α → JsonTree → Prop) : Prop :=
  ∀ ⦃tree : JsonTree⦄ ⦃text blank : Text⦄, tree.IsWritten text → IsBlank blank →
    ∀ rest a rest', read (blank ++ (text ++ rest)) = .ok (a, rest') ↔ means a tree ∧ rest' = rest

theorem isBlank_nil : IsBlank [] :=
  nofun

theorem JsonTree.isString {tree : JsonTree} (h : tree.type = .string) :
    ∃ text, tree = .string text := by
  cases tree with
  | string text => exact ⟨text, rfl⟩
  | _ => cases h

theorem JsonTree.isList {tree : JsonTree} (h : tree.type = .list) :
    ∃ values, tree = .list values := by
  cases tree with
  | list values => exact ⟨values, rfl⟩
  | _ => cases h

theorem JsonTree.isObject {tree : JsonTree} (h : tree.type = .object) :
    ∃ members, tree = .object members := by
  cases tree with
  | object members => exact ⟨members, rfl⟩
  | _ => cases h

theorem JsonTree.isNull {tree : JsonTree} (h : tree.type = .null) : tree = .null := by
  cases tree with
  | null => rfl
  | _ => cases h

namespace JsonReader

variable {α : Type} {text rest blank : Text}

/-- What a value begins with tells whether it has a type that begins with one character only. -/
theorem begins_iff {tree : JsonTree} {c d : Char} {type : JsonType}
    (hc : c ∈ tree.type.openings) (hd : type.openings = [d]) : c = d ↔ tree.type = type := by
  constructor
  · rintro rfl
    refine JsonType.openings_injective hc ?_
    rw [hd]
    exact .head _
  · rintro rfl
    rw [hd] at hc
    exact List.mem_singleton.mp hc

theorem readText_decodes : Decodes readText fun text tree => tree = .string text := by
  intro tree text blank hw hb rest a rest'
  obtain ⟨c, later, rfl, hc⟩ := hw.begins
  have hblank := (JsonType.openings_props hc).1
  have hquote : c = '"' ↔ tree.type = .string := begins_iff hc rfl
  rw [readText, List.cons_append, bind_of_ok (beginValue_blank hb hblank _)]
  by_cases hq : tree.type = .string
  · obtain ⟨value, rfl⟩ := tree.isString hq
    rw [if_pos (hquote.mpr hq), ← List.cons_append]
    cases hw with
    | @string _ written h =>
      have hread : readQuoted ('"' :: (written ++ ['"']) ++ rest) = .ok (value, rest) := by
        simpa using readQuoted_written h rest
      rw [hread]
      simp only [Except.ok.injEq, Prod.mk.injEq, JsonTree.string.injEq]
      exact and_congr Iff.rfl eq_comm
  · rw [if_neg (mt hquote.mp hq)]
    constructor
    · intro h
      exact absurd h (mismatch_not_ok _ _ _)
    · rintro ⟨rfl, -⟩
      exact absurd rfl hq

end JsonReader

theorem Decodes.map {α β : Type} {read : JsonReader α} {means : α → JsonTree → Prop}
    (h : Decodes read means) (f : α → β) :
    Decodes (do return f (← read)) fun b tree => ∃ a, means a tree ∧ b = f a := by
  intro tree text blank hw hb rest b rest'
  have hread := h hw hb rest
  rw [JsonReader.bind_eq_ok]
  constructor
  · rintro ⟨a, _, ha, hpure⟩
    obtain ⟨hmeans, rfl⟩ := (hread _ _).mp ha
    obtain ⟨rfl, rfl⟩ := Prod.mk.inj (JsonReader.pure_eq_ok.mp hpure)
    exact ⟨⟨a, hmeans, rfl⟩, rfl⟩
  · rintro ⟨⟨a, hmeans, rfl⟩, rfl⟩
    exact ⟨a, _, (hread _ _).mpr ⟨hmeans, rfl⟩, rfl⟩

theorem Decodes.congr {α : Type} {read : JsonReader α} {means means' : α → JsonTree → Prop}
    (h : Decodes read means) (hiff : ∀ a tree, means a tree ↔ means' a tree) :
    Decodes read means' := by
  intro tree text blank hw hb rest a rest'
  rw [← hiff]
  exact h hw hb rest a rest'

/-- A value that may be null. -/
inductive OptionalTree {α : Type} (means : α → JsonTree → Prop) : Option α → JsonTree → Prop
  | none : OptionalTree means none .null
  | some {a : α} {tree : JsonTree} (h : means a tree) : OptionalTree means (some a) tree

inductive ListTree {α : Type} (means : α → JsonTree → Prop) : List α → JsonTree → Prop
  | list {as : List α} {values : List JsonTree} (h : List.Forall₂ means as values) :
      ListTree means as (.list values)

namespace JsonReader

variable {α : Type} {read : JsonReader α} {means : α → JsonTree → Prop}

theorem readOptional_decodes (hread : Decodes read means) (hnull : ∀ a, ¬means a .null) :
    Decodes (readOptional read) (OptionalTree means) := by
  intro tree text blank hw hb rest a rest'
  obtain ⟨c, later, rfl, hc⟩ := hw.begins
  have hblank := (JsonType.openings_props hc).1
  have hn : c = 'n' ↔ tree.type = .null := begins_iff hc rfl
  rw [readOptional, List.cons_append, bind_of_ok (peek_blank hb hblank _)]
  by_cases htype : tree.type = .null
  · obtain rfl := tree.isNull htype
    obtain ⟨rfl, rfl⟩ : c = 'n' ∧ later = "ull".toList := by
      cases hw
      exact ⟨rfl, rfl⟩
    rw [if_pos rfl, bind_of_ok (skip_cons _ _), bind_of_ok (readRest_append _ _), pure_eq_ok]
    constructor
    · rintro ⟨⟩
      exact ⟨.none, rfl⟩
    · rintro ⟨h, rfl⟩
      cases h with
      | none => rfl
      | some h => exact absurd h (hnull _)
  · have hsome : ¬some c = some 'n' := fun h => htype (hn.mp (Option.some.inj h))
    have hiff := hread hw isBlank_nil rest
    rw [if_neg hsome, bind_eq_ok]
    constructor
    · rintro ⟨value, _, h, hpure⟩
      obtain ⟨hmeans, rfl⟩ := (hiff _ _).mp h
      obtain ⟨rfl, rfl⟩ := Prod.mk.inj (pure_eq_ok.mp hpure)
      exact ⟨.some hmeans, rfl⟩
    · rintro ⟨h, rfl⟩
      cases h with
      | none => exact absurd rfl htype
      | some h => exact ⟨_, _, (hiff _ _).mpr ⟨h, rfl⟩, rfl⟩

end JsonReader

theorem ItemsText.nextValue {values : List JsonTree} {value : JsonTree} {isFirst : Bool}
    {text : Text} (h : ItemsText JsonTree.IsWritten isFirst (value :: values) text) :
    ∃ written others, value.IsWritten written ∧
      ItemsText JsonTree.IsWritten false values others ∧ others.length < text.length ∧
      ∀ rest, JsonReader.nextValue isFirst (text ++ rest) =
        .ok (true, written ++ (others ++ rest)) := by
  cases h with
  | @first blank written others _ _ hb hw later =>
    obtain ⟨c, begun, rfl, hc⟩ := hw.begins
    obtain ⟨hspace, hclose, -⟩ := JsonType.openings_props hc
    refine ⟨_, others, hw, later, ?_, fun rest => ?_⟩
    · simp only [List.length_append, List.length_cons]
      omega
    · simp only [List.append_assoc, List.cons_append]
      rw [JsonReader.nextValue, JsonReader.bind_of_ok (JsonReader.peek_blank hb hspace _)]
      simp only [if_neg hclose]
      rfl
  | @next blank blank' written others _ _ hb hb' hw later =>
    obtain ⟨c, begun, rfl, hc⟩ := hw.begins
    obtain ⟨hspace, hclose, -⟩ := JsonType.openings_props hc
    have hcomma : JsonReader.isSpace ',' = false := rfl
    refine ⟨_, others, hw, later, ?_, fun rest => ?_⟩
    · simp only [List.length_append, List.length_cons]
      omega
    · simp only [List.append_assoc, List.cons_append]
      rw [JsonReader.nextValue, JsonReader.bind_of_ok (JsonReader.peek_blank hb hcomma _)]
      show (JsonReader.skip >>= _) _ = _
      rw [JsonReader.bind_of_ok (JsonReader.skip_cons _ _),
        JsonReader.bind_of_ok (JsonReader.peek_blank hb' hspace _)]
      simp only [if_neg hclose]
      rfl

theorem nextValue_end {blank : Text} (isFirst : Bool) (hb : IsBlank blank) (rest : Text) :
    JsonReader.nextValue isFirst (blank ++ ']' :: rest) = .ok (false, ']' :: rest) := by
  have hclose : JsonReader.isSpace ']' = false := rfl
  rw [JsonReader.nextValue, JsonReader.bind_of_ok (JsonReader.peek_blank hb hclose _)]
  rfl

theorem endList_end {blank : Text} (hb : IsBlank blank) (rest : Text) :
    JsonReader.endList (blank ++ ']' :: rest) = .ok ((), rest) := by
  have hclose : JsonReader.isSpace ']' = false := rfl
  rw [JsonReader.endList, JsonReader.bind_of_ok (JsonReader.peek_blank hb hclose _)]
  rfl

namespace JsonReader

variable {α : Type} {read : JsonReader α} {means : α → JsonTree → Prop}

theorem readValues_iff (hread : Decodes read means) {values : List JsonTree} {isFirst : Bool}
    {text : Text} {fuel : Nat} (h : ItemsText JsonTree.IsWritten isFirst values text)
    (hf : text.length < fuel) (rest : Text) (as : List α) (rest' : Text) :
    readValues read fuel isFirst (text ++ ']' :: rest) = .ok (as, rest') ↔
      List.Forall₂ means as values ∧ rest' = ']' :: rest := by
  induction values generalizing isFirst text fuel as rest' with
  | nil =>
    obtain ⟨fuel, rfl⟩ := Nat.exists_eq_add_one_of_ne_zero (Nat.ne_zero_of_lt hf)
    cases h with
    | nil hb =>
      rw [readValues, bind_of_ok (nextValue_end isFirst hb rest)]
      simp only [Bool.false_eq_true, if_false, pure_eq_ok, Prod.mk.injEq]
      exact and_congr_left fun _ => List.forall₂_nil_right_iff.symm
  | cons value values ih =>
    obtain ⟨fuel, rfl⟩ := Nat.exists_eq_add_one_of_ne_zero (Nat.ne_zero_of_lt hf)
    obtain ⟨written, others, hw, hothers, hlt, hnext⟩ := h.nextValue
    have hiff := hread hw isBlank_nil (others ++ ']' :: rest)
    have hlater := ih hothers (by omega : others.length < fuel)
    rw [readValues, bind_of_ok (hnext _), if_pos rfl, bind_eq_ok]
    constructor
    · rintro ⟨a, _, h, hrest⟩
      obtain ⟨hmeans, rfl⟩ := (hiff _ _).mp h
      obtain ⟨as, _, h, hpure⟩ := bind_eq_ok.mp hrest
      obtain ⟨hall, rfl⟩ := (hlater _ _).mp h
      obtain ⟨rfl, rfl⟩ := Prod.mk.inj (pure_eq_ok.mp hpure)
      exact ⟨.cons hmeans hall, rfl⟩
    · rintro ⟨hall, rfl⟩
      cases hall with
      | cons hmeans hall =>
        refine ⟨_, _, (hiff _ _).mpr ⟨hmeans, rfl⟩, ?_⟩
        rw [bind_of_ok ((hlater _ _).mpr ⟨hall, rfl⟩)]
        rfl

theorem readList_decodes (hread : Decodes read means) :
    Decodes (readList read) (ListTree means) := by
  intro tree text blank hw hb rest as rest'
  obtain ⟨c, later, rfl, hc⟩ := hw.begins
  have hblank := (JsonType.openings_props hc).1
  have hopen : c = '[' ↔ tree.type = .list := begins_iff hc rfl
  rw [readList, List.cons_append, bind_of_ok (beginValue_blank hb hblank _)]
  by_cases htype : tree.type = .list
  · obtain ⟨values, rfl⟩ := tree.isList htype
    rw [if_pos (hopen.mpr htype), bind_of_ok (skip_cons _ _)]
    cases hw with
    | @list _ text h =>
      have hf : text.length < (text ++ ']' :: rest).length + 1 := by
        rw [List.length_append]
        omega
      have hiff := readValues_iff hread h hf rest
      have hclose : endList (']' :: rest) = .ok ((), rest) := endList_end isBlank_nil rest
      simp only [List.append_assoc, List.singleton_append]
      rw [bind_of_ok (get_eq _), bind_eq_ok]
      constructor
      · rintro ⟨_, _, h, hend⟩
        obtain ⟨hall, rfl⟩ := (hiff _ _).mp h
        rw [bind_of_ok hclose, pure_eq_ok] at hend
        obtain ⟨rfl, rfl⟩ := Prod.mk.inj hend
        exact ⟨.list hall, rfl⟩
      · rintro ⟨⟨hall⟩, rfl⟩
        refine ⟨_, _, (hiff _ _).mpr ⟨hall, rfl⟩, ?_⟩
        rw [bind_of_ok hclose]
        rfl
  · rw [if_neg (mt hopen.mp htype)]
    constructor
    · intro h
      exact absurd h (mismatch_not_ok _ _ _)
    · rintro ⟨⟨_⟩, -⟩
      exact absurd rfl htype

end JsonReader

end DirectImports
