import Mathlib.Data.List.Chain
import DirectImports.Text.Blank

/-! The words and the lines of a text. A text is its words with the white space around them, and its
lines with what ends them. -/

namespace DirectImports

/-- A text is made of words, with white space before, after and between them. -/
inductive HasWords : Text → List Text → Prop
  | nil : HasWords [] []
  | blank {c : Char} {text : Text} {words : List Text} (hc : isBlank c = true)
      (h : HasWords text words) : HasWords (c :: text) words
  | word {word text : Text} {words : List Text} (hne : word ≠ [])
      (hword : ∀ c ∈ word, isBlank c = false) (hnext : ∀ c ∈ text.head?, isBlank c = true)
      (h : HasWords text words) : HasWords (word ++ text) (word :: words)

theorem HasWords.attach {c d : Char} {text : Text} {words : List Text}
    (h : HasWords (d :: text) words) (hc : isBlank c = false) (hd : isBlank d = false) :
    HasWords (c :: d :: text) (attach c words) := by
  generalize ht : d :: text = rest at h
  cases h with
  | nil => cases ht
  | blank hblank h =>
    obtain ⟨rfl, -⟩ := List.cons.inj ht
    rw [hd] at hblank
    cases hblank
  | @word word _ _ hne hword hnext h =>
    have hword' : ∀ e ∈ c :: word, isBlank e = false := List.forall_mem_cons.mpr ⟨hc, hword⟩
    exact .word (List.cons_ne_nil c word) hword' hnext h

theorem hasWords_words (text : Text) : HasWords text (words text) := by
  induction text with
  | nil => exact .nil
  | cons c text ih =>
    rw [words.eq_def]
    by_cases hc : isBlank c = true
    · simpa [hc] using ih.blank hc
    · have hword : ∀ d ∈ [c], isBlank d = false := by simpa using hc
      cases text with
      | nil =>
        have hnext : ∀ e ∈ ([] : Text).head?, isBlank e = true := by simp
        simpa [hc] using HasWords.nil.word (List.cons_ne_nil c []) hword hnext
      | cons d text =>
        by_cases hd : isBlank d = true
        · have hnext : ∀ e ∈ (d :: text).head?, isBlank e = true := by simpa using hd
          simpa [hc, hd] using ih.word (List.cons_ne_nil c []) hword hnext
        · simpa [hc, hd] using ih.attach (by simpa using hc) (by simpa using hd)

theorem HasWords.unbroken {text : Text} {words : List Text} (h : HasWords text words) :
    ∀ word ∈ words, '\n' ∉ word := by
  induction h with
  | nil => nofun
  | blank hc h ih => exact ih
  | word hne hword hnext h ih =>
    refine List.forall_mem_cons.mpr ⟨fun hm => ?_, ih⟩
    have hbreak := hword '\n' hm
    revert hbreak
    decide

theorem notMem_joinWith {separator : Text} {c : Char} {parts : List Text} (hs : c ∉ separator)
    (hp : ∀ part ∈ parts, c ∉ part) : c ∉ joinWith separator parts := by
  induction parts with
  | nil => exact List.not_mem_nil
  | cons first parts ih =>
    obtain ⟨hfirst, hp⟩ := List.forall_mem_cons.mp hp
    cases parts with
    | nil => simpa [joinWith] using hfirst
    | cons second parts =>
      rw [joinWith_cons_cons]
      simp [hfirst, hs, ih hp]

section Separators

variable {isSeparator : Char → Bool} {separator : Char} {parts : List Text}

/-- Parts of a text that have something in them, but no separator. -/
def AreFreeOf (isSeparator : Char → Bool) (parts : List Text) : Prop :=
  ∀ part ∈ parts, part ≠ [] ∧ ∀ c ∈ part, isSeparator c = false

/-- No separator stands first, last or beside another one. -/
structure SeparatorsStandApart (isSeparator : Char → Bool) (text : Text) : Prop where
  first : ∀ c ∈ text.head?, isSeparator c = false
  last : ∀ c ∈ text.getLast?, isSeparator c = false
  apart : text.IsChain fun a b => ¬(isSeparator a = true ∧ isSeparator b = true)

theorem separatorsStandApart_of_none {text : Text} (h : ∀ c ∈ text, isSeparator c = false) :
    SeparatorsStandApart isSeparator text where
  first c hc := h c (List.mem_of_mem_head? hc)
  last c hc := h c (List.mem_of_mem_getLast? hc)
  apart := by
    induction text with
    | nil => exact .nil
    | cons c text ih =>
      obtain ⟨hc, h⟩ := List.forall_mem_cons.mp h
      exact (ih h).cons fun d _ hcd => by simp [hc] at hcd

theorem filter_joinWith (h : AreFreeOf isSeparator parts) (hs : isSeparator separator = true) :
    (joinWith [separator] parts).filter (fun c => !isSeparator c) = parts.flatten := by
  induction parts with
  | nil => rfl
  | cons first parts ih =>
    obtain ⟨⟨-, hfirst⟩, h⟩ := List.forall_mem_cons.mp h
    have hkept : first.filter (fun c => !isSeparator c) = first :=
      List.filter_eq_self.mpr fun c hc => by simp [hfirst c hc]
    cases parts with
    | nil => simpa [joinWith] using hkept
    | cons second parts =>
      rw [joinWith_cons_cons, List.filter_append, List.filter_append, hkept, ih h,
        List.flatten_cons]
      simp [hs]

theorem joinWith_begins_with (separator part : Text) (parts : List Text) :
    ∃ later, joinWith separator (part :: parts) = part ++ later := by
  cases parts with
  | nil => exact ⟨[], by simp [joinWith]⟩
  | cons next parts => exact ⟨_, joinWith_cons_cons _ _ _ _⟩

theorem joinWith_standApart (separator : Char) (h : AreFreeOf isSeparator parts) :
    SeparatorsStandApart isSeparator (joinWith [separator] parts) := by
  induction parts with
  | nil => exact ⟨nofun, nofun, .nil⟩
  | cons first parts ih =>
    obtain ⟨⟨hne, hfirst⟩, h⟩ := List.forall_mem_cons.mp h
    have halone := separatorsStandApart_of_none hfirst
    cases parts with
    | nil => simpa [joinWith] using halone
    | cons second parts =>
      obtain ⟨hhead, hlast, hchain⟩ := ih h
      obtain ⟨later, hlater⟩ := joinWith_begins_with [separator] second parts
      obtain ⟨c, rest, rfl⟩ := List.exists_cons_of_ne_nil (h second (.head _)).1
      obtain ⟨d, before, rfl⟩ := List.exists_cons_of_ne_nil hne
      rw [joinWith_cons_cons]
      rw [hlater] at hhead hlast hchain ⊢
      have hc : isSeparator c = false := hhead c rfl
      constructor
      case first => exact halone.first
      case last =>
        rwa [List.getLast?_append_of_ne_nil _ (by simp), List.getLast?_append_of_ne_nil _ (by simp)]
      case apart =>
        refine halone.apart.append (hchain.cons fun e he hse => ?_) fun e he f _ hef => ?_
        · obtain rfl := Option.some.inj he
          simp [hc] at hse
        · simp [halone.last e he] at hef

theorem AreFreeOf.cons_single {c : Char} (h : AreFreeOf isSeparator parts)
    (hc : isSeparator c = false) : AreFreeOf isSeparator ([c] :: parts) :=
  List.forall_mem_cons.mpr ⟨⟨List.cons_ne_nil c [], List.forall_mem_singleton.mpr hc⟩, h⟩

theorem AreFreeOf.attach {c : Char} (h : AreFreeOf isSeparator parts) (hc : isSeparator c = false) :
    AreFreeOf isSeparator (attach c parts) := by
  cases parts with
  | nil => exact h.cons_single hc
  | cons part parts =>
    obtain ⟨⟨-, hpart⟩, h⟩ := List.forall_mem_cons.mp h
    exact List.forall_mem_cons.mpr
      ⟨⟨List.cons_ne_nil c part, List.forall_mem_cons.mpr ⟨hc, hpart⟩⟩, h⟩

theorem flatten_attach (c : Char) (parts : List Text) :
    (attach c parts).flatten = c :: parts.flatten := by
  cases parts <;> rfl

theorem joinWith_attach (separator : Text) (c : Char) (part : Text) (parts : List Text) :
    joinWith separator (attach c (part :: parts)) = c :: joinWith separator (part :: parts) := by
  cases parts with
  | nil => simp [attach, joinWith]
  | cons next parts => rw [attach, joinWith_cons_cons, joinWith_cons_cons, List.cons_append]

end Separators

/-- A text is made of lines that end with a line feed, with or without a carriage return before it.
What stands behind the last one is a line as well. -/
inductive HasLines : Text → List Text → Prop
  | nil : HasLines [] []
  | last {line : Text} (hne : line ≠ []) (hline : '\n' ∉ line) : HasLines line [line]
  | feed {line text : Text} {lines : List Text} (hline : '\n' ∉ line)
      (hreturn : line.getLast? ≠ some '\r') (h : HasLines text lines) :
      HasLines (line ++ '\n' :: text) (line :: lines)
  | returnFeed {line text : Text} {lines : List Text} (hline : '\n' ∉ line)
      (h : HasLines text lines) : HasLines (line ++ '\r' :: '\n' :: text) (line :: lines)

theorem HasLines.attach {c : Char} {text : Text} {lines : List Text} (h : HasLines text lines)
    (hc : c ≠ '\n') (hreturn : c = '\r' → text.head? ≠ some '\n') :
    HasLines (c :: text) (attach c lines) := by
  have hkept : ∀ {line : Text}, '\n' ∉ line → '\n' ∉ c :: line := by
    intro line hline
    simp [hline, hc.symm]
  cases h with
  | nil => exact .last (List.cons_ne_nil _ _) (hkept List.not_mem_nil)
  | last hne hline => exact .last (List.cons_ne_nil _ _) (hkept hline)
  | @feed line _ _ hline hend h =>
    have hend' : (c :: line).getLast? ≠ some '\r' := by
      cases line with
      | nil => simpa using mt hreturn (by simp)
      | cons d line => simpa using hend
    exact .feed (hkept hline) hend' h
  | returnFeed hline h => exact .returnFeed (hkept hline) h

theorem hasLines_lines (text : Text) : HasLines text (lines text) := by
  fun_induction lines text with
  | case1 => exact .nil
  | case2 text ih =>
    have hend : ([] : Text).getLast? ≠ some '\r' := nofun
    exact .feed List.not_mem_nil hend ih
  | case3 text ih =>
    have hempty : '\n' ∉ ([] : Text) := List.not_mem_nil
    exact .returnFeed hempty ih
  | case4 c text hfeed hreturn ih =>
    refine ih.attach hfeed fun hc hhead => ?_
    obtain ⟨rest, rfl⟩ := List.head?_eq_some_iff.mp hhead
    exact hreturn rest hc rfl

end DirectImports
