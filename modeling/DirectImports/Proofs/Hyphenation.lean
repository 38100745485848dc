import Mathlib
import DirectImports.Naming
import DirectImports.Text.Blank

/-! Where a name is hyphenated. Hyphens that are set in one pass with a look to both sides are the
hyphens of two passes, of which the second reads what the first has written. A name that is put
together from words comes apart into them. -/

namespace DirectImports

/-- What a capital begins a word after. -/
def isSmall (c : Char) : Bool :=
  c.isLower || c.isDigit

theorem isUpper_of_isSmall {c : Char} (h : isSmall c = true) : c.isUpper = false := by
  rcases Bool.or_eq_true_iff.mp h with hl | hd
  · exact Bool.eq_false_iff.mpr (Char.not_isUpper_of_isLower hl)
  · simp only [Char.isDigit, Char.isUpper, Bool.and_eq_true, decide_eq_true_eq, ge_iff_le,
      decide_eq_false_iff_not, UInt32.le_iff_toNat_le] at hd ⊢
    have h9 : '9'.val.toNat = 57 := rfl
    have hA : 'A'.val.toNat = 65 := rfl
    omega

theorem isSmall_of_isUpper {c : Char} (h : c.isUpper = true) : isSmall c = false := by
  by_contra hs
  rw [isUpper_of_isSmall (Bool.eq_true_of_not_eq_false hs)] at h
  cases h

section

variable {previous current : Char} {next : Option Char}

theorem beginsWord_after_small (h : isSmall previous = true) :
    beginsWord previous current next = current.isUpper := by
  have hu := isUpper_of_isSmall h
  rw [isSmall] at h
  simp [beginsWord, h, hu]

theorem beginsWord_of_not_upper (h : current.isUpper = false) :
    beginsWord previous current next = false := by
  simp [beginsWord, h]

theorem beginsWord_after_other (h : isSmall previous = false) :
    beginsWord previous current next =
      (previous.isUpper && (current.isUpper && next.any Char.isLower)) := by
  rw [isSmall] at h
  simp [beginsWord, h, Bool.and_assoc]

end

/-- The first pass: a hyphen before every capital behind a small letter or digit. -/
def markCapitals : Text → Text
  | a :: b :: rest =>
    if isSmall a && b.isUpper then a :: '-' :: markCapitals (b :: rest)
    else a :: markCapitals (b :: rest)
  | name => name

/-- The second pass: two capitals and a small letter are found from left to right, and a hyphen is
put between the capitals. What was found once is not looked at again. -/
def splitAcronyms : Text → Text
  | a :: b :: c :: rest =>
    if a.isUpper && b.isUpper && c.isLower then a :: '-' :: b :: c :: splitAcronyms rest
    else a :: splitAcronyms (b :: c :: rest)
  | name => name

def runsIntoWord : Text → Bool
  | b :: c :: _ => b.isUpper && c.isLower
  | _ => false

theorem runsIntoWord_cons (c : Char) (text : Text) :
    runsIntoWord (c :: text) = (c.isUpper && text.head?.any Char.isLower) := by
  cases text with
  | nil => simp [runsIntoWord]
  | cons d text => rfl

theorem splitAcronyms_of_not_found {a : Char} {text : Text}
    (h : (a.isUpper && runsIntoWord text) = false) :
    splitAcronyms (a :: text) = a :: splitAcronyms text := by
  match text with
  | [] => rfl
  | [_] => rfl
  | b :: c :: rest =>
    rw [runsIntoWord, ← Bool.and_assoc] at h
    simp only [splitAcronyms, h, Bool.false_eq_true, if_false]

/-- No two findings share a character, so that the scan may as well go on behind the first one. -/
theorem splitAcronyms_of_found {a : Char} {text : Text} (ha : a.isUpper = true)
    (ht : runsIntoWord text = true) :
    splitAcronyms (a :: text) = a :: '-' :: splitAcronyms text := by
  match text with
  | b :: c :: rest =>
    obtain ⟨hb, hc⟩ := Bool.and_eq_true_iff.mp ht
    have hcu : c.isUpper = false := Bool.eq_false_iff.mpr (Char.not_isUpper_of_isLower hc)
    have hfirst : splitAcronyms (b :: c :: rest) = b :: splitAcronyms (c :: rest) :=
      splitAcronyms_of_not_found (by simp [runsIntoWord_cons, hcu])
    have hsecond : splitAcronyms (c :: rest) = c :: splitAcronyms rest :=
      splitAcronyms_of_not_found (by simp [hcu])
    rw [hfirst, hsecond]
    simp [splitAcronyms, ha, hb, hc]

/-- The first pass puts nothing between a capital and what stands behind it. -/
theorem markCapitals_of_not_small {a : Char} (h : isSmall a = false) (text : Text) :
    markCapitals (a :: text) = a :: markCapitals text := by
  cases text with
  | nil => rfl
  | cons b text => simp [markCapitals, h]

theorem head?_markCapitals (text : Text) : (markCapitals text).head? = text.head? := by
  match text with
  | [] => rfl
  | [_] => rfl
  | a :: b :: rest =>
    rw [markCapitals]
    split
    · rfl
    · rfl

/-- The first pass leaves the second one as much to find as there was. -/
theorem runsIntoWord_markCapitals (text : Text) :
    runsIntoWord (markCapitals text) = runsIntoWord text := by
  cases text with
  | nil => rfl
  | cons a text =>
    by_cases ha : a.isUpper = true
    · rw [markCapitals_of_not_small (isSmall_of_isUpper ha), runsIntoWord_cons, runsIntoWord_cons,
        head?_markCapitals]
    · obtain ⟨rest, hrest⟩ := List.head?_eq_some_iff.mp (head?_markCapitals (a :: text))
      rw [hrest, runsIntoWord_cons, runsIntoWord_cons, Bool.eq_false_iff.mpr ha]
      rfl

/-- Behind a character both passes set the hyphens that one pass sets with a look at it. -/
theorem splitAcronyms_markCapitals (c : Char) (text : Text) :
    splitAcronyms (markCapitals (c :: text)) = c :: hyphenateAfter c text := by
  induction text generalizing c with
  | nil => rfl
  | cons d text ih =>
    by_cases hs : isSmall c = true
    case pos =>
      have hc : c.isUpper = false := isUpper_of_isSmall hs
      rw [hyphenateAfter, beginsWord_after_small hs]
      by_cases hd : d.isUpper = true
      -- Nothing is found across the hyphen that the first pass has set here.
      · have hmark : markCapitals (c :: d :: text) = c :: '-' :: markCapitals (d :: text) := by
          simp [markCapitals, hs, hd]
        have hhyphen : '-'.isUpper = false := rfl
        rw [hmark, splitAcronyms_of_not_found (by simp [hc]),
          splitAcronyms_of_not_found (by simp [hhyphen]), ih, if_pos hd]
      · have hmark : markCapitals (c :: d :: text) = c :: markCapitals (d :: text) := by
          simp [markCapitals, hd]
        rw [hmark, splitAcronyms_of_not_found (by simp [hc]), ih, if_neg hd]
    case neg =>
      rw [markCapitals_of_not_small (Bool.eq_false_iff.mpr hs), hyphenateAfter,
        beginsWord_after_other (Bool.eq_false_iff.mpr hs), ← runsIntoWord_cons]
      by_cases hf : (c.isUpper && runsIntoWord (d :: text)) = true
      · obtain ⟨hc, hd⟩ := Bool.and_eq_true_iff.mp hf
        have hfound : runsIntoWord (markCapitals (d :: text)) = true := by
          rw [runsIntoWord_markCapitals, hd]
        rw [splitAcronyms_of_found hc hfound, ih, if_pos hf]
      · have hnone : (c.isUpper && runsIntoWord (markCapitals (d :: text))) = false := by
          rw [runsIntoWord_markCapitals, Bool.eq_false_iff.mpr hf]
        rw [splitAcronyms_of_not_found hnone, ih, if_neg hf]

/-- The kebab case of a name comes out of two passes over it. -/
theorem kebabCase_eq_passes (name : Text) :
    kebabCase name = lowerCase (splitAcronyms (markCapitals name)) := by
  cases name with
  | nil => rfl
  | cons c name => rw [splitAcronyms_markCapitals, kebabCase, hyphenate]

example : markCapitals "GridHTTPServer".toList = "Grid-HTTPServer".toList ∧
    splitAcronyms "Grid-HTTPServer".toList = "Grid-HTTP-Server".toList := by
  decide +kernel

/-- A capital, a small letter, and then small letters and digits. -/
def IsCapitalized : Text → Prop
  | first :: second :: rest =>
    first.isUpper = true ∧ second.isLower = true ∧ ∀ c ∈ rest, isSmall c = true
  | _ => False

instance : DecidablePred IsCapitalized
  | [] => isFalse id
  | [_] => isFalse id
  | first :: second :: rest =>
    decidable_of_iff (first.isUpper = true ∧ second.isLower = true ∧ rest.all isSmall = true)
      (by simp only [List.all_eq_true, IsCapitalized])

def IsAcronym (word : Text) : Prop :=
  word ≠ [] ∧ ∀ c ∈ word, c.isUpper = true

instance : DecidablePred IsAcronym := fun word =>
  decidable_of_iff (word ≠ [] ∧ word.all Char.isUpper = true)
    (by simp only [List.all_eq_true, IsAcronym])

/-- Words that can still be told apart when they are written together. -/
structure AreWords (words : List Text) : Prop where
  each : ∀ word ∈ words, IsCapitalized word ∨ IsAcronym word
  apart : words.IsChain fun a b => ¬(IsAcronym a ∧ IsAcronym b)

theorem IsCapitalized.eq_cons {word : Text} (h : IsCapitalized word) :
    ∃ first second rest, word = first :: second :: rest ∧ first.isUpper = true ∧
      second.isLower = true ∧ ∀ c ∈ rest, isSmall c = true := by
  match word, h with
  | first :: second :: rest, h => exact ⟨first, second, rest, rfl, h⟩

theorem exists_upper_cons {word : Text} (h : IsCapitalized word ∨ IsAcronym word) :
    ∃ first rest, word = first :: rest ∧ first.isUpper = true := by
  rcases h with hc | ⟨hne, hw⟩
  · obtain ⟨first, second, rest, rfl, hf, -, -⟩ := hc.eq_cons
    exact ⟨first, second :: rest, rfl, hf⟩
  · obtain ⟨first, rest, rfl⟩ := List.exists_cons_of_ne_nil hne
    exact ⟨first, rest, rfl, hw first (.head _)⟩

theorem AreWords.tail {word : Text} {words : List Text} (h : AreWords (word :: words)) :
    AreWords words :=
  ⟨fun other ho => h.each other (.tail _ ho), h.apart.tail⟩

theorem AreWords.head?_isUpper {words : List Text} (h : AreWords words) :
    ∀ c ∈ words.flatten.head?, c.isUpper = true := by
  cases words with
  | nil => exact nofun
  | cons word words =>
    obtain ⟨first, rest, rfl, hf⟩ := exists_upper_cons (h.each word (.head _))
    rintro c ⟨⟩
    exact hf

theorem hyphenateAfter_not_upper {word : Text} (h : ∀ c ∈ word, c.isUpper = false)
    (previous : Char) (rest : Text) : hyphenateAfter previous (word ++ rest) =
      word ++ hyphenateAfter (word.getLastD previous) rest := by
  induction word generalizing previous with
  | nil => rfl
  | cons c word ih =>
    obtain ⟨hc, hword⟩ := List.forall_mem_cons.mp h
    rw [List.cons_append, hyphenateAfter, beginsWord_of_not_upper hc, if_neg Bool.false_ne_true,
      ih hword, List.getLastD_cons, List.cons_append]

theorem hyphenateAfter_upper {word rest : Text} (h : ∀ c ∈ word, c.isUpper = true)
    (hrest : ∀ c ∈ rest.head?, c.isUpper = true) {previous : Char}
    (hp : previous.isUpper = true) : hyphenateAfter previous (word ++ rest) =
      word ++ hyphenateAfter (word.getLastD previous) rest := by
  induction word generalizing previous with
  | nil => rfl
  | cons c word ih =>
    obtain ⟨hc, hword⟩ := List.forall_mem_cons.mp h
    have hnext : ∀ d ∈ (word ++ rest).head?, d.isUpper = true := by
      cases word with
      | nil => exact hrest
      | cons d word => exact fun e he => Option.some.inj he ▸ hword d (.head _)
    have hlower : (word ++ rest).head?.any Char.isLower = false := by
      rw [Option.any_eq_false]
      exact fun d hd => by simpa using Char.not_isLower_of_isUpper (hnext d hd)
    have hnone : beginsWord previous c (word ++ rest).head? = false := by
      rw [beginsWord_after_other (isSmall_of_isUpper hp), hlower, Bool.and_false, Bool.and_false]
    rw [List.cons_append, hyphenateAfter, hnone, if_neg Bool.false_ne_true, ih hword hc,
      List.getLastD_cons, List.cons_append]

/-- No word begins inside a capitalized word, and it ends with what a word begins behind. -/
theorem IsCapitalized.hyphenate_append {word : Text} (h : IsCapitalized word) (rest : Text) :
    ∃ last, isSmall last = true ∧ hyphenate (word ++ rest) = word ++ hyphenateAfter last rest := by
  obtain ⟨first, second, body, rfl, -, hs, hb⟩ := h.eq_cons
  have hsmall : ∀ c ∈ second :: body, isSmall c = true :=
    List.forall_mem_cons.mpr ⟨Bool.or_eq_true_iff.mpr (.inl hs), hb⟩
  refine ⟨body.getLastD second, hsmall _ List.getLastD_mem_cons, ?_⟩
  have hbody := hyphenateAfter_not_upper (fun c hc => isUpper_of_isSmall (hsmall c hc)) first rest
  rw [List.getLastD_cons] at hbody
  rw [List.cons_append, hyphenate, hbody]
  rfl

/-- Nor does one begin inside an acronym as long as no small letter follows. -/
theorem IsAcronym.hyphenate_append {word rest : Text} (h : IsAcronym word)
    (hrest : ∀ c ∈ rest.head?, c.isUpper = true) : ∃ last, last.isUpper = true ∧
      hyphenate (word ++ rest) = word ++ hyphenateAfter last rest := by
  obtain ⟨first, body, rfl⟩ := List.exists_cons_of_ne_nil h.1
  obtain ⟨hfirst, hbody⟩ := List.forall_mem_cons.mp h.2
  refine ⟨body.getLastD first, h.2 _ List.getLastD_mem_cons, ?_⟩
  rw [List.cons_append, hyphenate, hyphenateAfter_upper hbody hrest hfirst, List.cons_append]

theorem hyphenateAfter_of_beginsWord {previous c : Char} {text : Text}
    (h : beginsWord previous c text.head? = true) :
    hyphenateAfter previous (c :: text) = '-' :: hyphenate (c :: text) := by
  rw [hyphenateAfter, if_pos h, hyphenate]

theorem AreWords.hyphenate_cons {word next : Text} {words : List Text}
    (h : AreWords (word :: next :: words)) :
    hyphenate (word :: next :: words).flatten =
      word ++ '-' :: hyphenate (next :: words).flatten := by
  obtain ⟨first, body, hnext, hfirst⟩ := exists_upper_cons (h.tail.each next (.head _))
  rcases h.each word (.head _) with hw | hw
  case inl =>
    obtain ⟨last, hlast, hword⟩ := hw.hyphenate_append (next :: words).flatten
    rw [List.flatten_cons, hword, List.flatten_cons, hnext, List.cons_append,
      hyphenateAfter_of_beginsWord (by rw [beginsWord_after_small hlast, hfirst])]
  case inr =>
    obtain ⟨last, hlast, hword⟩ := hw.hyphenate_append h.tail.head?_isUpper
    -- Behind a capital only the small letter that comes next shows that a word begins.
    have hcapitalized : IsCapitalized next :=
      (h.tail.each next (.head _)).resolve_right fun hn =>
        (List.isChain_cons_cons.mp h.apart).1 ⟨hw, hn⟩
    obtain ⟨first, second, body, rfl, hf, hs, -⟩ := hcapitalized.eq_cons
    have hbegins : beginsWord last first (second :: (body ++ words.flatten)).head? = true := by
      simp [beginsWord, hlast, hf, hs]
    rw [List.flatten_cons, hword, List.flatten_cons, List.cons_append, List.cons_append,
      hyphenateAfter_of_beginsWord hbegins]

theorem hyphenate_flatten {words : List Text} (h : AreWords words) :
    hyphenate words.flatten = joinWith ['-'] words := by
  induction words with
  | nil => rfl
  | cons word words ih =>
    cases words with
    | cons next words =>
      rw [h.hyphenate_cons, ih h.tail, joinWith_cons_cons, List.singleton_append]
    | nil =>
      have hword : hyphenate (word ++ []) = word ++ [] := by
        rcases h.each word (.head _) with hw | hw
        · obtain ⟨last, -, hword⟩ := hw.hyphenate_append []
          exact hword
        · have hnone : ∀ c ∈ ([] : Text).head?, c.isUpper = true := nofun
          obtain ⟨last, -, hword⟩ := hw.hyphenate_append hnone
          exact hword
      exact hword

theorem lowerCase_joinWith (separator : Text) (parts : List Text) :
    lowerCase (joinWith separator parts) =
      joinWith (lowerCase separator) (parts.map lowerCase) := by
  induction parts with
  | nil => rfl
  | cons a parts ih =>
    cases parts with
    | nil => simp [joinWith]
    | cons b parts =>
      rw [joinWith_cons_cons, List.map_cons, List.map_cons, joinWith_cons_cons, ← List.map_cons,
        ← ih]
      simp only [lowerCase, List.map_append]

/-- A name that is put together from words becomes these words in small letters, with a hyphen
between each and the next. -/
theorem kebabCase_flatten {words : List Text} (h : AreWords words) :
    kebabCase words.flatten = joinWith ['-'] (words.map lowerCase) := by
  rw [kebabCase, hyphenate_flatten h, lowerCase_joinWith]
  rfl

/-- An acronym stands first, in the middle with one letter only, and last. -/
def requestWords : List Text :=
  ["XML".toList, "Http2".toList, "Request".toList, ['A'], "Button".toList, "UI".toList]

theorem kebabCase_requestWords : AreWords requestWords ∧
    kebabCase "XMLHttp2RequestAButtonUI".toList = "xml-http2-request-a-button-ui".toList := by
  have hwords : AreWords requestWords := ⟨by decide +kernel, by decide +kernel⟩
  refine ⟨hwords, ?_⟩
  have hname : requestWords.flatten = "XMLHttp2RequestAButtonUI".toList := by decide +kernel
  rw [← hname, kebabCase_flatten hwords]
  decide +kernel

end DirectImports
