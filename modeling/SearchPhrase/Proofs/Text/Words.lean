import Mathlib.Data.List.TakeWhile
import SearchPhrase.Text.Blank

/-!
# Blanks and words

Blanks stand before, between and after the words of a text, and their number
does not matter where there are any.  This module says which texts have given
words: a word is a run without blanks, and blanks or the ends of the text are on
both sides of it.
-/

namespace SearchPhrase.Text

/-! ## Blanks at the ends of a text -/

theorem trimStart_cons {character : Char} (notBlank : isBlank character = false)
    (rest : List Char) : trimStart (character :: rest) = character :: rest := by
  simp [trimStart, notBlank]

theorem trimStart_blank {blank : Char} (isBlank_blank : isBlank blank = true)
    (rest : List Char) :
    trimStart (blank :: rest) = trimStart rest := by
  simp [trimStart, isBlank_blank]

/-- The blanks that are removed at the start of a text, and what remains. -/
theorem exists_blanks (text : List Char) :
    ∃ blanks, text = blanks ++ trimStart text ∧
      ∀ blank ∈ blanks, isBlank blank = true :=
  ⟨text.takeWhile isBlank, (List.takeWhile_append_dropWhile).symm,
    fun _ member => List.mem_takeWhile_imp member⟩

theorem trimStart_append {blanks : List Char}
    (blank : ∀ character ∈ blanks, isBlank character = true)
    (rest : List Char) :
    trimStart (blanks ++ rest) = trimStart rest :=
  List.dropWhile_append_of_pos blank

theorem trimStart_eq_self {text : List Char}
    (first : ∀ character ∈ text.head?, isBlank character = false) :
    trimStart text = text := by
  cases text with
  | nil => rfl
  | cons character rest => exact trimStart_cons (first character rfl) rest

theorem trim_eq_self {text : List Char}
    (first : ∀ character ∈ text.head?, isBlank character = false)
    (last : ∀ character ∈ text.getLast?, isBlank character = false) :
    trim text = text := by
  have stop : trimStart text.reverse = text.reverse :=
    trimStart_eq_self (by simpa only [List.head?_reverse] using last)
  rw [trim, trimStart_eq_self first, stop, List.reverse_reverse]

theorem trimStart_suffix (text : List Char) : trimStart text <:+ text :=
  List.dropWhile_suffix _

/-- The blanks that are removed at both ends of a text. -/
theorem exists_trim (text : List Char) :
    ∃ lead tail, text = lead ++ trim text ++ tail ∧
      (∀ blank ∈ lead, isBlank blank = true) ∧
      ∀ blank ∈ tail, isBlank blank = true := by
  obtain ⟨lead, started, leadBlank⟩ := exists_blanks text
  obtain ⟨tail, ended, tailBlank⟩ := exists_blanks (trimStart text).reverse
  refine ⟨lead, tail.reverse, ?_, leadBlank, by simpa using tailBlank⟩
  have reversed := congrArg List.reverse ended
  rw [List.reverse_reverse, List.reverse_append] at reversed
  rw [trim, List.append_assoc, ← reversed, ← started]

/-- A text that starts and ends with characters other than blanks. -/
structure IsTrimmed (text : List Char) : Prop where
  ne_nil : text ≠ []
  first : ∀ character ∈ text.head?, isBlank character = false
  last : ∀ character ∈ text.getLast?, isBlank character = false

/-- Anything may stand between two texts that have no blanks at their ends. -/
theorem IsTrimmed.append {left right : List Char} (start : IsTrimmed left)
    (stop : IsTrimmed right)
    (middle : List Char) : IsTrimmed (left ++ middle ++ right) where
  ne_nil := by simp [start.ne_nil]
  first := by
    obtain ⟨character, rest, rfl⟩ := List.exists_cons_of_ne_nil start.ne_nil
    exact start.first
  last := by
    intro character final
    cases ended : right.getLast? with
    | none => exact absurd (List.getLast?_eq_none_iff.mp ended) stop.ne_nil
    | some closing =>
        rw [List.getLast?_append, ended, Option.some_or] at final
        exact stop.last character (ended.trans final)

/-- Further blanks around a text change nothing. -/
theorem trim_append_blanks {lead tail : List Char}
    (leadBlank : ∀ blank ∈ lead, isBlank blank = true)
    (tailBlank : ∀ blank ∈ tail, isBlank blank = true) (text : List Char) :
    trim (lead ++ text ++ tail) = trim text := by
  have started :
      trimStart (lead ++ text ++ tail) = trimStart (text ++ tail) := by
    rw [List.append_assoc, trimStart_append leadBlank]
  rw [trim, started, trim]
  congr 1
  cases solid : trimStart text with
  | nil =>
      have none : trimStart (text ++ tail) = [] := by
        rw [trimStart, List.dropWhile_append, ← trimStart, solid,
          if_pos List.isEmpty_nil]
        exact List.dropWhile_eq_nil_iff.mpr tailBlank
      rw [none]
  | cons first rest =>
      have kept : trimStart (text ++ tail) = first :: rest ++ tail := by
        rw [trimStart, List.dropWhile_append, ← trimStart, solid,
          if_neg (by simp)]
      rw [kept, List.reverse_append,
        trimStart_append (by simpa using tailBlank)]

/-- All the blanks around a text are removed. -/
theorem IsTrimmed.trim_append {text : List Char} (trimmed : IsTrimmed text)
    {lead tail : List Char} (leadBlank : ∀ blank ∈ lead, isBlank blank = true)
    (tailBlank : ∀ blank ∈ tail, isBlank blank = true) :
    trim (lead ++ text ++ tail) = text :=
  (trim_append_blanks leadBlank tailBlank text).trans
    (trim_eq_self trimmed.first trimmed.last)

/-- Blanks that a text starts with stand before all of its other characters. -/
theorem IsTrimmed.ne_nil_of_append {text blanks rest : List Char}
    (trimmed : IsTrimmed text)
    (separate :
      ∀ character ∈ (blanks ++ text ++ rest).head?, isBlank character = true) :
    blanks ≠ [] := by
  rintro rfl
  obtain ⟨character, others, rfl⟩ := List.exists_cons_of_ne_nil trimmed.ne_nil
  have blank := separate character rfl
  rw [trimmed.first character rfl] at blank
  cases blank

/-! ## Words -/

/-- A nonempty text without blanks. -/
structure IsWord (text : List Char) : Prop where
  ne_nil : text ≠ []
  solid : ∀ character ∈ text, isBlank character = false

theorem IsWord.isTrimmed {text : List Char} (word : IsWord text) :
    IsTrimmed text where
  ne_nil := word.ne_nil
  first character head := word.solid character (List.mem_of_mem_head? head)
  last character final := word.solid character (List.mem_of_mem_getLast? final)

/-- A text without blanks is one word. -/
theorem words_eq_singleton {text : List Char} (nonempty : text ≠ [])
    (solid : ∀ character ∈ text, isBlank character = false) :
    words text = [text] := by
  have leading : leadingWord text = (text, []) := by
    clear nonempty
    induction text with
    | nil => rfl
    | cons character rest ih =>
        rw [List.forall_mem_cons] at solid
        simp [leadingWord, ih solid.2, solid.1]
  simp [words, leading, consWord, nonempty]

theorem words_blank_cons {blank : Char} (isBlank_blank : isBlank blank = true)
    (text : List Char) : words (blank :: text) = words text :=
  words_append_blank [] isBlank_blank text

theorem words_blanks_append {blanks : List Char}
    (blank : ∀ b ∈ blanks, isBlank b = true)
    (text : List Char) : words (blanks ++ text) = words text := by
  induction blanks with
  | nil => rfl
  | cons character rest ih =>
      rw [List.forall_mem_cons] at blank
      rw [List.cons_append, words_blank_cons blank.1, ih blank.2]

/-- Blanks end the words before them and start none. -/
theorem words_append_blanks {blanks : List Char}
    (blank : ∀ b ∈ blanks, isBlank b = true)
    (separate : blanks ≠ []) (left right : List Char) :
    words (left ++ blanks ++ right) = words left ++ words right := by
  obtain ⟨character, rest, rfl⟩ := List.exists_cons_of_ne_nil separate
  rw [List.forall_mem_cons] at blank
  rw [List.append_assoc, List.cons_append, words_append_blank left blank.1,
    words_blanks_append blank.2]

theorem words_append_blanks_end {blanks : List Char}
    (blank : ∀ b ∈ blanks, isBlank b = true)
    (text : List Char) : words (text ++ blanks) = words text := by
  by_cases empty : blanks = []
  · rw [empty, List.append_nil]
  · have separated := words_append_blanks blank empty text []
    rwa [List.append_nil, words_nil, List.append_nil] at separated

/--
A text from its leading word on: the word, and a blank or nothing after it.
-/
theorem exists_leadingWord (text : List Char) :
    ∃ tail, text = (leadingWord text).1 ++ tail ∧
      words tail = (leadingWord text).2 ∧
      (∀ character ∈ (leadingWord text).1, isBlank character = false) ∧
      ∀ character ∈ tail.head?, isBlank character = true := by
  induction text with
  | nil => exact ⟨[], rfl, rfl, by simp [leadingWord], by simp⟩
  | cons character rest ih =>
      obtain ⟨tail, shape, others, solid, separate⟩ := ih
      by_cases blank : isBlank character = true
      · refine ⟨character :: rest, ?_, ?_, ?_, by simpa using blank⟩
        · simp [leadingWord, blank]
        · rw [words]
          simp [leadingWord, blank, consWord]
        · simp [leadingWord, blank]
      · refine ⟨tail, ?_, ?_, ?_, separate⟩
        · simpa [leadingWord, blank] using shape
        · simpa [leadingWord, blank] using others
        · simpa [leadingWord, blank] using solid

/-- The first word of a text, with the blanks before it and what follows it. -/
theorem exists_of_words_eq_cons {text word : List Char}
    {others : List (List Char)} (split : words text = word :: others) :
    ∃ lead tail, text = lead ++ word ++ tail ∧
      (∀ blank ∈ lead, isBlank blank = true) ∧
      IsWord word ∧ (∀ character ∈ tail.head?, isBlank character = true) ∧
      words tail = others := by
  induction text with
  | nil => cases split
  | cons character rest ih =>
      by_cases blank : isBlank character = true
      · rw [words_blank_cons blank] at split
        obtain ⟨lead, tail, rfl, leadBlank, shape⟩ := ih split
        exact ⟨character :: lead, tail, rfl, by simpa [blank] using leadBlank,
          shape⟩
      · obtain ⟨tail, shape, remaining, solid, separate⟩ :=
          exists_leadingWord (character :: rest)
        have leading : (leadingWord (character :: rest)).1 ≠ [] := by
          simp [leadingWord, blank]
        rw [words, consWord, if_neg (by simpa using leading)] at split
        obtain ⟨rfl, rfl⟩ := List.cons_eq_cons.mp split
        exact ⟨[], tail, shape, by simp, ⟨leading, solid⟩, separate, remaining⟩

theorem words_trim (text : List Char) : words (trim text) = words text := by
  obtain ⟨lead, tail, shape, leadBlank, tailBlank⟩ := exists_trim text
  have surrounded := congrArg words shape
  rw [words_append_blanks_end tailBlank,
    words_blanks_append leadBlank] at surrounded
  exact surrounded.symm

/-- A text with two words has a blank. -/
theorem exists_blank_of_words {text first second : List Char}
    {others : List (List Char)}
    (split : words text = first :: second :: others) :
    ∃ blank ∈ text, isBlank blank = true := by
  by_contra solid
  simp only [not_exists, not_and, Bool.not_eq_true] at solid
  by_cases empty : text = []
  · rw [empty] at split
    cases split
  · rw [words_eq_singleton empty solid] at split
    cases split

/-- A text without words has blanks only. -/
theorem isBlank_of_words_eq_nil {text : List Char}
    (wordless : words text = []) :
    ∀ character ∈ text, isBlank character = true := by
  induction text with
  | nil => simp
  | cons character rest ih =>
      by_cases blank : isBlank character = true
      · rw [words_blank_cons blank] at wordless
        simpa [blank] using ih wordless
      · simp [words, consWord, leadingWord, blank] at wordless

end SearchPhrase.Text
