import DirectImports.Proofs.Codes
import DirectImports.Proofs.Printing

/-! How a text may be written as a string literal: in either quotation marks, and with any escapes.
Each writing is read as this text. -/

namespace DirectImports

def escapeLetters : List (Char × Char) :=
  [('n', '\n'), ('t', '\t'), ('b', '\x08'), ('v', '\x0b'), ('f', '\x0c'), ('r', '\r')]

/-- Whether a character stands for itself behind a backslash. -/
def escapesItself (c : Char) : Bool :=
  !(escapeLetters.map Prod.fst).contains c && c != 'x' && c != 'u' && !c.isDigit && !isLineEnd c

/-- What stands for a character behind a backslash. -/
inductive EscapeText : Char → Text → Prop
  | letter {letter c : Char} (h : (letter, c) ∈ escapeLetters) : EscapeText c [letter]
  | itself {c : Char} (h : escapesItself c = true) : EscapeText c [c]
  | pair {a b c : Char} {high low : Nat} (ha : hexValue? a = some high)
      (hb : hexValue? b = some low) (hc : c.toNat = 16 * high + low) : EscapeText c ['x', a, b]
  | quad {c : Char} {digits : Text} (hd : FourDigits c.toNat digits) : EscapeText c ('u' :: digits)
  | braced {c : Char} {digits : Text} (hne : digits ≠ [])
      (hd : hexNumberFrom? 0 digits = some c.toNat) :
      EscapeText c ('u' :: '\x7b' :: (digits ++ ['\x7d']))
  | halves {c : Char} {high low : Nat} {first second : Text} (hc : AreHalves c high low)
      (hf : FourDigits high first) (hs : FourDigits low second) :
      EscapeText c ('u' :: (first ++ '\\' :: 'u' :: second))

def lineEndTexts : List Text :=
  [['\n'], ['\r'], ['\r', '\n'], ['\u2028'], ['\u2029']]

/-- A text, and what may stand for it between quotation marks. A zero may be written by its digit
before anything but a digit, and a line end behind a backslash stands for nothing. -/
inductive QuotedText (quote : Char) : Text → Text → Prop
  | nil : QuotedText quote [] []
  | plain {c : Char} {value written : Text} (hq : c ≠ quote) (hb : c ≠ '\\') (hn : c ≠ '\n')
      (hr : c ≠ '\r') (later : QuotedText quote value written) :
      QuotedText quote (c :: value) (c :: written)
  | escape {c : Char} {escape value written : Text} (he : EscapeText c escape)
      (later : QuotedText quote value written) :
      QuotedText quote (c :: value) ('\\' :: (escape ++ written))
  | zero {value written : Text} (hd : ∀ c ∈ written.head?, c.isDigit = false)
      (later : QuotedText quote value written) :
      QuotedText quote ('\x00' :: value) ('\\' :: '0' :: written)
  | continued {line value written : Text} (hl : line ∈ lineEndTexts)
      (later : QuotedText quote value written) :
      QuotedText quote value ('\\' :: (line ++ written))

def prependUnits (units : List LiteralUnit) (read : List LiteralUnit × Text) :
    List LiteralUnit × Text :=
  (units ++ read.1, read.2)

theorem readUnits_more {quote c : Char} {mode next : LiteralMode} {units : List LiteralUnit}
    (h : literalStep quote mode c = .more units next) (text : Text) :
    readUnits quote mode (c :: text) = (readUnits quote next text).map (prependUnits units) := by
  simp only [readUnits, h]
  rfl

theorem readUnits_silent {quote c : Char} {mode next : LiteralMode}
    (h : literalStep quote mode c = .more [] next) (text : Text) :
    readUnits quote mode (c :: text) = readUnits quote next text := by
  rw [readUnits_more h]
  cases readUnits quote next text <;> rfl

def IsQuote (quote : Char) : Prop :=
  quote = '"' ∨ quote = '\''

theorem IsQuote.ne_backslash {quote : Char} (h : IsQuote quote) : '\\' ≠ quote := by
  rcases h with rfl | rfl <;> decide

theorem readUnits_backslash {quote : Char} (h : IsQuote quote) (text : Text) :
    readUnits quote .plain ('\\' :: text) = readUnits quote .escape text := by
  have hs : literalStep quote .plain '\\' = .more [] .escape := by
    simp [literalStep, plainStep, h.ne_backslash]
  exact readUnits_silent hs text

theorem readUnits_quad {quote : Char} {code : Nat} {digits : Text} (h : FourDigits code digits)
    (text : Text) : readUnits quote .code (digits ++ text) =
      (readUnits quote .plain text).map
        (prependUnits [if isHalf code then .half code else .point code]) := by
  obtain ⟨ha, hb, hc, hd⟩ := h
  rename_i a b c d w x y z
  have hcode : ((w * 16 + x) * 16 + y) * 16 + z = 16 * (16 * (16 * w + x) + y) + z := by omega
  have h1 : literalStep quote .code a = .more [] (.quad 3 w) := by
    simp [literalStep, hexValue?_ne ha, ha]
  have h2 : literalStep quote (.quad 3 w) b = .more [] (.quad 2 (16 * w + x)) := by
    simp [literalStep, hb]
  have h3 : literalStep quote (.quad 2 (16 * w + x)) c =
      .more [] (.quad 1 (16 * (16 * w + x) + y)) := by
    simp [literalStep, hc]
  have h4 : literalStep quote (.quad 1 (16 * (16 * w + x) + y)) d =
      .more [if isHalf (16 * (16 * (16 * w + x) + y) + z) then
        .half (16 * (16 * (16 * w + x) + y) + z)
        else .point (16 * (16 * (16 * w + x) + y) + z)] .plain := by
    simp [literalStep, hd]
  rw [hcode]
  simp only [List.cons_append, List.nil_append]
  rw [readUnits_silent h1, readUnits_silent h2, readUnits_silent h3, readUnits_more h4]

theorem readUnits_braced {quote : Char} {n : Nat} {digits : Text} (hn : n ≤ 0x10ffff)
    (value : Option Nat) (hne : value = none → digits ≠ [])
    (h : hexNumberFrom? (value.getD 0) digits = some n) (text : Text) :
    readUnits quote (.braced value) (digits ++ '\x7d' :: text) =
      (readUnits quote .plain text).map (prependUnits [.point n]) := by
  induction digits generalizing value with
  | nil =>
    cases value with
    | none => exact absurd rfl (hne rfl)
    | some value =>
      obtain rfl : value = n := Option.some.inj h
      have hs : literalStep quote (.braced (some value)) '\x7d' =
          .more [.point value] .plain := by
        have hx : hexValue? '\x7d' = none := by decide
        simp [literalStep, hx]
      exact readUnits_more hs text
  | cons c digits ih =>
    obtain ⟨digit, hc, h⟩ := Option.bind_eq_some_iff.mp h
    have hle := le_hexNumberFrom? h
    have hs : literalStep quote (.braced value) c =
        .more [] (.braced (some (16 * value.getD 0 + digit))) := by
      have hsmall : 16 * value.getD 0 + digit ≤ 0x10ffff := by omega
      simp [literalStep, hc, hsmall]
    rw [List.cons_append, readUnits_silent hs]
    exact ih (some _) (by simp) h

theorem octalValue?_of_not_digit {c : Char} (hc : c.isDigit = false) : octalValue? c = none := by
  have hdigit : ¬('0' ≤ c ∧ c ≤ '7') := by
    rintro ⟨hlow, hhigh⟩
    have hdigit : c.isDigit = true := by
      simp only [Char.isDigit, Bool.and_eq_true, decide_eq_true_eq]
      exact ⟨hlow, UInt32.le_trans hhigh (by decide)⟩
    rw [hc] at hdigit
    exact Bool.false_ne_true hdigit
  simp [octalValue?, hdigit]

theorem EscapeText.read {quote c : Char} {escape : Text} (hq : IsQuote quote)
    (h : EscapeText c escape) (text : Text) :
    ∃ units, (∀ later, joinHalves (units ++ later) = c.toNat :: joinHalves later) ∧
      readUnits quote .escape (escape ++ text) =
        (readUnits quote .plain text).map (prependUnits units) := by
  have hu : literalStep quote .escape 'u' = .more [] .code := rfl
  cases h with
  | @letter l _ h =>
    refine ⟨[.point c.toNat], fun later => by simp [joinHalves], ?_⟩
    have hs : literalStep quote .escape l = .more [.point c.toNat] .plain := by
      simp only [escapeLetters, List.mem_cons, Prod.mk.injEq, List.not_mem_nil, or_false] at h
      rcases h with ⟨rfl, rfl⟩ | ⟨rfl, rfl⟩ | ⟨rfl, rfl⟩ | ⟨rfl, rfl⟩ | ⟨rfl, rfl⟩ | ⟨rfl, rfl⟩
      all_goals rfl
    exact readUnits_more hs text
  | itself h =>
    refine ⟨[.point c.toNat], fun later => by simp [joinHalves], ?_⟩
    simp only [escapesItself, escapeLetters, List.map_cons, List.map_nil, List.contains_eq_mem,
      List.mem_cons, List.not_mem_nil, or_false, not_or, Bool.and_eq_true, Bool.not_eq_true',
      decide_eq_false_iff_not, bne_iff_ne] at h
    obtain ⟨⟨⟨⟨⟨hn, ht, hb, hv, hf, hr⟩, hx⟩, hu'⟩, hd⟩, hl⟩ := h
    have ho : octalValue? c = none := octalValue?_of_not_digit hd
    have hcr : c ≠ '\r' := by
      rintro rfl
      exact absurd hl (by decide)
    have hs : literalStep quote .escape c = .more [.point c.toNat] .plain := by
      simp [literalStep, escapeStep, hn, ht, hb, hv, hf, hr, hx, hu', hcr, hl, ho]
    exact readUnits_more hs text
  | @pair a b _ high low ha hb hc =>
    refine ⟨[.point c.toNat], fun later => by simp [joinHalves], ?_⟩
    have h1 : literalStep quote .escape 'x' = .more [] (.pair 2 0) := rfl
    have h2 : literalStep quote (.pair 2 0) a = .more [] (.pair 1 high) := by
      simp [literalStep, ha]
    have h3 : literalStep quote (.pair 1 high) b = .more [.point c.toNat] .plain := by
      simp [literalStep, hb, hc]
    simp only [List.cons_append, List.nil_append]
    rw [readUnits_silent h1, readUnits_silent h2, readUnits_more h3]
  | quad hd =>
    refine ⟨[.point c.toNat], fun later => by simp [joinHalves], ?_⟩
    rw [List.cons_append, readUnits_silent hu, readUnits_quad hd]
    simp [isHalf_toNat]
  | @braced _ digits hne hd =>
    refine ⟨[.point c.toNat], fun later => by simp [joinHalves], ?_⟩
    have hc : c.toNat ≤ 0x10ffff := by
      have := toNat_not_half c
      omega
    have hopen : literalStep quote .code '\x7b' = .more [] (.braced none) := rfl
    simp only [List.cons_append, List.append_assoc, List.nil_append]
    rw [readUnits_silent hu, readUnits_silent hopen]
    exact readUnits_braced hc none (fun _ => hne) hd text
  | @halves _ high low first second hc hf hs =>
    obtain ⟨hhigh, hlow, hcode⟩ := hc
    have hh : isHighHalf high = true := by
      simp only [isHighHalf, Bool.and_eq_true, decide_eq_true_eq]
      omega
    have hl : isLowHalf low = true := by
      simp only [isLowHalf, Bool.and_eq_true, decide_eq_true_eq]
      omega
    refine ⟨[.half high, .half low], fun later => by simp [joinHalves, hh, hl, hcode], ?_⟩
    simp only [List.cons_append, List.append_assoc]
    rw [readUnits_silent hu, readUnits_quad hf, readUnits_backslash hq, readUnits_silent hu,
      readUnits_quad hs, Option.map_map]
    simp only [isHalf, hh, hl, Bool.or_true, Bool.true_or, if_true]
    rfl

theorem readUnits_zero {quote c : Char} (text : Text) (hc : c.isDigit = false) :
    readUnits quote (.octal 2 0) (c :: text) =
      (readUnits quote .plain (c :: text)).map (prependUnits [.point 0]) := by
  have ho := octalValue?_of_not_digit hc
  have hs : literalStep quote (.octal 2 0) c = (plainStep quote c).after (.point 0) := by
    simp [literalStep, ho]
  have hp : literalStep quote .plain c = plainStep quote c := rfl
  cases hstep : plainStep quote c with
  | fail => simp [readUnits, hs, hp, hstep, LiteralStep.after]
  | close units => simp [readUnits, hs, hp, hstep, LiteralStep.after, prependUnits]
  | more units mode =>
    simp only [readUnits, hs, hp, hstep, LiteralStep.after, Option.map_map]
    rfl

theorem QuotedText.head_ne {quote : Char} {value written : Text} (hq : IsQuote quote)
    (h : QuotedText quote value written) (rest : Text) :
    ∃ c text, written ++ quote :: rest = c :: text ∧ c ≠ '\n' ∧
      ((∀ d ∈ written.head?, d.isDigit = false) → c.isDigit = false) := by
  have hquote : quote ≠ '\n' ∧ quote.isDigit = false := by
    rcases hq with rfl | rfl <;> decide
  cases h with
  | nil => exact ⟨quote, rest, rfl, hquote.1, fun _ => hquote.2⟩
  | plain _ _ hn _ _ => exact ⟨_, _, rfl, hn, fun hd => hd _ rfl⟩
  | escape | zero | continued => exact ⟨'\\', _, rfl, by decide, fun _ => by decide⟩

theorem readUnits_continued {quote c : Char} {line : Text} (hl : line ∈ lineEndTexts)
    (hc : c ≠ '\n') (text : Text) :
    readUnits quote .escape (line ++ c :: text) = readUnits quote .plain (c :: text) := by
  have hr : literalStep quote .escape '\r' = .more [] .carriage := rfl
  simp only [lineEndTexts, List.mem_cons, List.not_mem_nil, or_false] at hl
  rcases hl with rfl | rfl | rfl | rfl | rfl
  · exact readUnits_silent rfl _
  · have hs : literalStep quote .carriage c = literalStep quote .plain c := by
      simp [literalStep, hc]
    rw [List.singleton_append, readUnits_silent hr]
    simp only [readUnits, hs]
  · have hn : literalStep quote .carriage '\n' = .more [] .plain := rfl
    simp only [List.cons_append, List.nil_append]
    rw [readUnits_silent hr, readUnits_silent hn]
  · exact readUnits_silent rfl _
  · exact readUnits_silent rfl _

theorem QuotedText.read {quote : Char} {value written : Text} (hq : IsQuote quote)
    (h : QuotedText quote value written) (rest : Text) :
    ∃ units, readUnits quote .plain (written ++ quote :: rest) = some (units, rest) ∧
      joinHalves units = value.map Char.toNat := by
  induction h with
  | nil => exact ⟨[], by simp [readUnits, literalStep, plainStep], rfl⟩
  | @plain c value written hc hb hn hr _ ih =>
    obtain ⟨units, hread, hjoin⟩ := ih
    have hs : literalStep quote .plain c = .more [.point c.toNat] .plain := by
      simp [literalStep, plainStep, hc, hb, hn, hr]
    refine ⟨.point c.toNat :: units, ?_, by simp [joinHalves, hjoin]⟩
    rw [List.cons_append, readUnits_more hs, hread]
    rfl
  | @escape c escape value written he _ ih =>
    obtain ⟨units, hread, hjoin⟩ := ih
    obtain ⟨first, hfirst, hescape⟩ := he.read hq (written ++ quote :: rest)
    refine ⟨first ++ units, ?_, by simp [hfirst, hjoin]⟩
    rw [List.cons_append, List.append_assoc, readUnits_backslash hq, hescape, hread]
    rfl
  | @zero value written hd later ih =>
    obtain ⟨units, hread, hjoin⟩ := ih
    obtain ⟨c, text, htext, -, hc⟩ := later.head_ne hq rest
    have hs : literalStep quote .escape '0' = .more [] (.octal 2 0) := rfl
    refine ⟨.point 0 :: units, ?_, by simp [joinHalves, hjoin]⟩
    rw [htext] at hread
    simp only [List.cons_append]
    rw [readUnits_backslash hq, readUnits_silent hs, htext, readUnits_zero _ (hc hd), hread]
    rfl
  | @continued line value written hl later ih =>
    obtain ⟨units, hread, hjoin⟩ := ih
    obtain ⟨c, text, htext, hn, -⟩ := later.head_ne hq rest
    refine ⟨units, ?_, hjoin⟩
    rw [List.cons_append, List.append_assoc, readUnits_backslash hq, htext,
      readUnits_continued hl hn, ← htext, hread]

theorem textOfUnits_of_join {units : List LiteralUnit} {text : Text}
    (h : joinHalves units = text.map Char.toNat) : textOfUnits units = text := by
  have hpoints := textOfUnits_points text
  have hjoin : joinHalves (text.map fun c => .point c.toNat) = joinHalves units := by
    rw [h, ← joinHalves_points (text.map Char.toNat), List.map_map]
    rfl
  simp only [textOfUnits, hjoin] at hpoints
  exact hpoints

theorem QuotedText.readLiteral {quote : Char} {value written : Text} (hq : IsQuote quote)
    (h : QuotedText quote value written) (rest : Text) :
    readLiteral quote (written ++ quote :: rest) = some (value, rest) := by
  obtain ⟨units, hread, hjoin⟩ := h.read hq rest
  simp [DirectImports.readLiteral, hread, textOfUnits_of_join hjoin]

end DirectImports
