import Mathlib.Computability.Language
import SearchPhrase.Text.Blank
import SearchPhrase.Text.Digit
import SearchPhrase.Text.Keyword

/-!
# Patterns

A pattern is the language of the texts that it matches.  Patterns are put
together from classes of characters and from keywords, whose letters are
compared by case folding, with the operations on languages: one after the other,
either of two, and any number of times.
-/

namespace SearchPhrase.Text.Pattern

open scoped Computability

/-- One character of a class. -/
def one (inClass : Char → Bool) : Language Char :=
  {text | ∃ character, inClass character = true ∧ text = [character]}

/-- A pattern one or more times. -/
def repeated (pattern : Language Char) : Language Char :=
  pattern * pattern∗

/-- A pattern or nothing. -/
def optional (pattern : Language Char) : Language Char :=
  1 + pattern

/-- A keyword, letter by letter and in any case. -/
def keyword (word : String) : Language Char :=
  (word.toList.map fun letter =>
    one fun character => foldCase character == letter).prod

/-- One blank. -/
def blank : Language Char := one isBlank

/-- One decimal digit of any script. -/
def decimalDigit : Language Char := one isDecimalDigit

/-! ## What the patterns match -/

theorem mem_one {inClass : Char → Bool} {text : List Char} :
    text ∈ one inClass ↔
      ∃ character, inClass character = true ∧ text = [character] :=
  Iff.rfl

theorem mem_kstar_one {inClass : Char → Bool} {text : List Char} :
    text ∈ (one inClass)∗ ↔ ∀ character ∈ text, inClass character = true := by
  rw [Language.mem_kstar]
  constructor
  · rintro ⟨parts, rfl, matched⟩ character member
    obtain ⟨part, inside, here⟩ := List.mem_flatten.mp member
    obtain ⟨other, classed, rfl⟩ := matched part inside
    rwa [List.mem_singleton.mp here]
  · intro classed
    refine ⟨text.map fun character => [character],
      (List.flatMap_singleton' text).symm, ?_⟩
    intro part inside
    obtain ⟨character, member, rfl⟩ := List.mem_map.mp inside
    exact ⟨character, classed character member, rfl⟩

theorem mem_repeated_one {inClass : Char → Bool} {text : List Char} :
    text ∈ repeated (one inClass) ↔
      text ≠ [] ∧ ∀ character ∈ text, inClass character = true := by
  rw [repeated, Language.mem_mul]
  constructor
  · rintro ⟨_, ⟨character, classed, rfl⟩, rest, others, rfl⟩
    refine ⟨by simp, ?_⟩
    simpa [classed] using mem_kstar_one.mp others
  · rintro ⟨nonempty, classed⟩
    obtain ⟨character, rest, rfl⟩ := List.exists_cons_of_ne_nil nonempty
    rw [List.forall_mem_cons] at classed
    exact ⟨[character], ⟨character, classed.1, rfl⟩, rest,
      mem_kstar_one.mpr classed.2, rfl⟩

theorem mem_optional {pattern : Language Char} {text : List Char} :
    text ∈ optional pattern ↔ text = [] ∨ text ∈ pattern := by
  rw [optional, Language.mem_add, Language.mem_one]

/-- Matching letter by letter is comparing the foldings. -/
theorem mem_keyword {word : String} {text : List Char} :
    text ∈ keyword word ↔ text.map foldCase = word.toList := by
  unfold keyword
  generalize word.toList = letters
  induction letters generalizing text with
  | nil => simp
  | cons letter letters ih =>
      rw [List.map_cons, List.prod_cons, Language.mem_mul]
      constructor
      · rintro ⟨_, ⟨character, folds, rfl⟩, rest, others, rfl⟩
        simp [beq_iff_eq.mp folds, ih.mp others]
      · intro folded
        obtain ⟨character, rest, rfl, folds, others⟩ :=
          List.map_eq_cons_iff.mp folded
        exact ⟨[character], ⟨character, by simpa using folds, rfl⟩, rest,
          ih.mpr others, rfl⟩

theorem mem_keyword_iff_foldsTo {word : String} {text : List Char} :
    text ∈ keyword word ↔ foldsTo text word = true := by
  rw [mem_keyword, foldsTo, beq_iff_eq]

/-- A keyword that an ending may follow is the keyword or the two together. -/
theorem mem_keyword_mul_optional {word ending : String} {text : List Char} :
    text ∈ keyword word * optional (keyword ending) ↔
      text ∈ keyword word ∨ text ∈ keyword (word ++ ending) := by
  simp only [Language.mem_mul, mem_optional, mem_keyword, String.toList_append]
  constructor
  · rintro ⟨start, folded, stop, rfl | ended, rfl⟩
    · exact Or.inl (by simpa using folded)
    · exact Or.inr (by rw [List.map_append, folded, ended])
  · rintro (folded | folded)
    · exact ⟨text, folded, [], Or.inl rfl, List.append_nil text⟩
    · obtain ⟨start, stop, rfl, started, ended⟩ :=
        List.map_eq_append_iff.mp folded
      exact ⟨start, started, stop, Or.inr ended, rfl⟩

end SearchPhrase.Text.Pattern
