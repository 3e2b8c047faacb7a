import Mathlib.Computability.Language
import Mathlib.Data.List.Chain
import SearchPhrase.Filter.FieldTest

/-!
# Wildcard patterns

A value that starts or ends with a wildcard is its own pattern, apart from the
spelling of its wildcards: both of them stand for any text, and a run of them
for no more than one of them.  The pattern spells each run by one percent sign.

The meaning of a pattern is a language: the texts that are put together from one
part for each of its characters, any text for a wildcard and the character
itself otherwise.  The pattern of a value has the same language as the value.  A
pattern without asterisks and without adjacent percent signs stays as it is, so
that the pattern of a pattern is the same.
-/

namespace SearchPhrase.FieldTest

/-! ## What a pattern matches -/

/--
The texts that a pattern matches, if the characters of a class stand for any
text and all other characters for themselves.
-/
def matched (isWild : Char → Bool) (pattern : List Char) : Language Char :=
  (pattern.map fun character =>
    if isWild character then ⊤ else {[character]}).prod

/-- A character of a pattern that stands for any text in filters. -/
def isPercent (character : Char) : Bool :=
  character == '%'

/-- Any text followed by any text is any text. -/
theorem top_mul_top : (⊤ : Language Char) * ⊤ = ⊤ := by
  refine top_le_iff.mp fun text _ => ?_
  exact Language.mem_mul.mpr ⟨[], trivial, text, trivial, rfl⟩

section Matched

variable {isWild : Char → Bool} {character : Char}

@[simp]
theorem matched_nil : matched isWild [] = 1 :=
  rfl

theorem matched_append (first second : List Char) :
    matched isWild (first ++ second) =
      matched isWild first * matched isWild second := by
  rw [matched, List.map_append, List.prod_append, matched, matched]

theorem matched_cons_of_wild (wild : isWild character = true)
    (rest : List Char) :
    matched isWild (character :: rest) = ⊤ * matched isWild rest := by
  rw [matched, List.map_cons, List.prod_cons, if_pos wild, matched]

theorem matched_cons_of_plain (plain : isWild character = false)
    (rest : List Char) :
    matched isWild (character :: rest) =
      {[character]} * matched isWild rest := by
  rw [matched, List.map_cons, List.prod_cons, if_neg (by simp [plain]), matched]

/--
A text is matched if it falls into one part for each character of the pattern.
-/
theorem mem_matched_iff {pattern text : List Char} :
    text ∈ matched isWild pattern ↔
      ∃ parts : List (List Char), text = parts.flatten ∧
        List.Forall₂
          (fun character part => isWild character = true ∨ part = [character])
          pattern parts := by
  induction pattern generalizing text with
  | nil => simp [Language.mem_one]
  | cons character rest ih =>
      have head (part : List Char) :
          part ∈
            (if isWild character then ⊤ else {[character]} : Language Char) ↔
            isWild character = true ∨ part = [character] := by
        by_cases wild : isWild character = true
        · rw [if_pos wild]
          exact iff_of_true trivial (Or.inl wild)
        · rw [if_neg wild]
          exact ⟨Or.inr, fun fits => fits.resolve_left wild⟩
      rw [matched, List.map_cons, List.prod_cons, ← matched, Language.mem_mul]
      constructor
      · rintro ⟨part, here, later, there, rfl⟩
        obtain ⟨parts, rfl, fits⟩ := ih.mp there
        exact ⟨part :: parts, rfl, .cons ((head part).mp here) fits⟩
      · rintro ⟨parts, rfl, fits⟩
        obtain ⟨part, others, here, there, rfl⟩ :=
          List.forall₂_cons_left_iff.mp fits
        exact ⟨part, (head part).mpr here, others.flatten,
          ih.mpr ⟨others, rfl, there⟩, rfl⟩

end Matched

/-! ## Runs of wildcards -/

theorem isWildcard_iff {character : Char} :
    isWildcard character = true ↔ character = '%' ∨ character = '*' := by
  simp [isWildcard]

theorem ne_of_not_isWildcard {character : Char}
    (plain : isWildcard character = false) :
    character ≠ '%' ∧ character ≠ '*' := by
  simpa [isWildcard] using plain

/-- The percent sign that has been written for a run that is still going on. -/
def openRun : Bool → List Char
  | true => ['%']
  | false => []

/--
The pattern of the rest of a value, with the percent sign of the run in which
the rest starts.
-/
def collapsed (inRun : Bool) (value : List Char) : List Char :=
  openRun inRun ++ collapseWildcards inRun value

@[simp]
theorem collapsed_nil (inRun : Bool) : collapsed inRun [] = openRun inRun := by
  rw [collapsed, collapseWildcards, List.append_nil]

/-- A wildcard goes on with a run or starts one. -/
theorem collapsed_cons_of_wildcard
    {character : Char} (wild : isWildcard character = true) (inRun : Bool)
    (rest : List Char) :
    collapsed inRun (character :: rest) = collapsed true rest := by
  cases inRun <;> simp [collapsed, collapseWildcards, openRun, wild]

/-- Any other character ends a run. -/
theorem collapsed_cons_of_plain
    {character : Char} (plain : isWildcard character = false) (inRun : Bool)
    (rest : List Char) :
    collapsed inRun (character :: rest) =
      openRun inRun ++ character :: collapsed false rest := by
  simp [collapsed, collapseWildcards, openRun, plain]

/--
A percent sign in front of a value that starts with a wildcard adds nothing.
-/
theorem matched_openRun_mul_top (inRun : Bool) :
    matched isPercent (openRun inRun) * ⊤ = ⊤ := by
  cases inRun with
  | false => rw [openRun, matched_nil, one_mul]
  | true =>
      rw [openRun, matched_cons_of_wild rfl, matched_nil, mul_one, top_mul_top]

/-- Collapsing the runs of a value keeps what it matches. -/
theorem matched_collapsed (inRun : Bool) (value : List Char) :
    matched isPercent (collapsed inRun value) =
      matched isPercent (openRun inRun) * matched isWildcard value := by
  induction value generalizing inRun with
  | nil => rw [collapsed_nil, matched_nil, mul_one]
  | cons character rest ih =>
      cases kind : isWildcard character with
      | true =>
          rw [collapsed_cons_of_wildcard kind, ih, matched_cons_of_wild kind,
            ← mul_assoc, matched_openRun_mul_top, openRun,
            matched_cons_of_wild rfl, matched_nil, mul_one]
      | false =>
          have plain : isPercent character = false :=
            beq_eq_false_iff_ne.mpr (ne_of_not_isWildcard kind).1
          rw [collapsed_cons_of_plain kind, matched_append,
            matched_cons_of_plain plain, ih, matched_cons_of_plain kind,
            openRun, matched_nil, one_mul]

/-- Collapsing keeps the characters that stand for themselves. -/
theorem filter_collapsed (inRun : Bool) (value : List Char) :
    (collapsed inRun value).filter (fun character => !isWildcard character) =
      value.filter fun character => !isWildcard character := by
  have noPlain :
      (openRun inRun).filter (fun character => !isWildcard character) = [] := by
    cases inRun <;> rfl
  induction value generalizing inRun with
  | nil => rw [collapsed_nil, noPlain, List.filter_nil]
  | cons character rest ih =>
      cases kind : isWildcard character with
      | true =>
          rw [collapsed_cons_of_wildcard kind, ih true rfl,
            List.filter_cons_of_neg]
          simp [kind]
      | false =>
          rw [collapsed_cons_of_plain kind, List.filter_append, noPlain,
            List.nil_append, List.filter_cons_of_pos (by simp [kind]),
            ih false rfl, List.filter_cons_of_pos (by simp [kind])]

/-! ## Patterns in normal form -/

/--
A pattern that spells wildcards by percent signs, and no two of them in a row.
-/
structure IsNormal (pattern : List Char) : Prop where
  noAsterisk : '*' ∉ pattern
  separated : pattern.IsChain fun left right => ¬(left = '%' ∧ right = '%')

theorem IsNormal.of_cons {character : Char} {rest : List Char}
    (normal : IsNormal (character :: rest)) : IsNormal rest where
  noAsterisk member := normal.noAsterisk (List.mem_cons_of_mem character member)
  separated := normal.separated.of_cons

theorem isNormal_openRun (inRun : Bool) : IsNormal (openRun inRun) := by
  cases inRun with
  | false => exact ⟨List.not_mem_nil, List.isChain_nil⟩
  | true => exact ⟨by simp [openRun], List.isChain_singleton _⟩

theorem IsNormal.openRun_append_cons
    {character : Char} {rest : List Char} (plain : isWildcard character = false)
    (inRun : Bool) (normal : IsNormal rest) :
    IsNormal (openRun inRun ++ character :: rest) := by
  obtain ⟨notPercent, notAsterisk⟩ := ne_of_not_isWildcard plain
  have tail : IsNormal (character :: rest) := by
    refine ⟨?_, normal.separated.cons fun next _ both => notPercent both.1⟩
    simp [Ne.symm notAsterisk, normal.noAsterisk]
  cases inRun with
  | false => exact tail
  | true =>
      refine ⟨?_, tail.separated.cons_cons fun both => notPercent both.2⟩
      simp [openRun, Ne.symm notAsterisk, normal.noAsterisk]

theorem isNormal_collapsed (inRun : Bool) (value : List Char) :
    IsNormal (collapsed inRun value) := by
  induction value generalizing inRun with
  | nil =>
      rw [collapsed_nil]
      exact isNormal_openRun inRun
  | cons character rest ih =>
      cases kind : isWildcard character with
      | true =>
          rw [collapsed_cons_of_wildcard kind]
          exact ih true
      | false =>
          rw [collapsed_cons_of_plain kind]
          exact (ih false).openRun_append_cons kind inRun

/-- A pattern in normal form has no run to collapse. -/
theorem IsNormal.collapsed_eq
    {pattern : List Char} {inRun : Bool}
    (normal : IsNormal (openRun inRun ++ pattern)) :
    collapsed inRun pattern = openRun inRun ++ pattern := by
  induction pattern generalizing inRun with
  | nil => rw [collapsed_nil, List.append_nil]
  | cons character rest ih =>
      have tail : IsNormal (character :: rest) := by
        cases inRun with
        | false => exact normal
        | true => exact normal.of_cons
      cases kind : isWildcard character with
      | true =>
          have percent : character = '%' :=
            (isWildcard_iff.mp kind).resolve_right fun asterisk =>
              tail.noAsterisk (asterisk ▸ List.mem_cons_self)
          subst percent
          cases inRun with
          | false =>
              rw [collapsed_cons_of_wildcard kind]
              exact ih tail
          | true => exact absurd ⟨rfl, rfl⟩ normal.separated.rel
      | false =>
          have unchanged : collapsed false rest = rest := ih tail.of_cons
          rw [collapsed_cons_of_plain kind, unchanged]

/-! ## Patterns of values -/

/-- A value whose first or last character is a wildcard. -/
def HasOuterWildcard (value : List Char) : Prop :=
  ∃ wildcard, (wildcard = '%' ∨ wildcard = '*') ∧
    (value.head? = some wildcard ∨ value.getLast? = some wildcard)

theorem wildcardPattern_of_outer {value : List Char}
    (outer : HasOuterWildcard value) :
    wildcardPattern value = collapsed false value := by
  obtain ⟨wildcard, spelled, place⟩ := outer
  have wild : isWildcard wildcard = true := isWildcard_iff.mpr spelled
  have marked :
      (value.head?.any isWildcard || value.getLast?.any isWildcard) = true := by
    rcases place with first | last
    · simp [first, wild]
    · simp [last, wild]
  rw [wildcardPattern, if_pos marked, collapsed, openRun, List.nil_append]

theorem getLast?_collapsed
    {wildcard : Char} (wild : isWildcard wildcard = true) {value : List Char}
    (last : value.getLast? = some wildcard) (inRun : Bool) :
    (collapsed inRun value).getLast? = some '%' := by
  induction value generalizing inRun with
  | nil => cases last
  | cons character rest ih =>
      cases rest with
      | nil =>
          have same : character = wildcard := by simpa using last
          rw [same, collapsed_cons_of_wildcard wild, collapsed_nil]
          rfl
      | cons next others =>
          have lastOfRest : (next :: others).getLast? = some wildcard := by
            rwa [List.getLast?_cons_cons] at last
          cases kind : isWildcard character with
          | true =>
              rw [collapsed_cons_of_wildcard kind]
              exact ih lastOfRest true
          | false =>
              rw [collapsed_cons_of_plain kind, List.getLast?_append,
                List.getLast?_cons, ih lastOfRest false]
              rfl

/-- A wildcard at an end of a value is still there in its pattern. -/
theorem HasOuterWildcard.collapsed {value : List Char}
    (outer : HasOuterWildcard value) :
    HasOuterWildcard (collapsed false value) := by
  obtain ⟨wildcard, spelled, place⟩ := outer
  have wild : isWildcard wildcard = true := isWildcard_iff.mpr spelled
  refine ⟨'%', Or.inl rfl, ?_⟩
  rcases place with first | last
  · obtain ⟨rest, rfl⟩ := List.head?_eq_some_iff.mp first
    rw [collapsed_cons_of_wildcard wild]
    exact Or.inl rfl
  · exact Or.inr (getLast?_collapsed wild last false)

/--
The pattern of a value that starts or ends with a wildcard spells wildcards by
percent signs that are never adjacent, keeps all other characters in order, is
its own pattern, and matches the texts that the value matches.
-/
theorem wildcardPattern_keeps_meaning {value : List Char}
    (outer : HasOuterWildcard value) :
    '*' ∉ wildcardPattern value ∧
      ¬ ['%', '%'] <:+: wildcardPattern value ∧
      (wildcardPattern value).filter (fun character => !isWildcard character) =
        value.filter (fun character => !isWildcard character) ∧
      wildcardPattern (wildcardPattern value) = wildcardPattern value ∧
      ∀ text, text ∈ matched isPercent (wildcardPattern value) ↔
        text ∈ matched isWildcard value := by
  have normal : IsNormal (collapsed false value) :=
    isNormal_collapsed false value
  rw [wildcardPattern_of_outer outer]
  refine ⟨normal.noAsterisk, ?_, filter_collapsed false value, ?_, ?_⟩
  · intro adjacent
    have pair := List.IsChain.infix normal.separated adjacent
    exact pair.rel ⟨rfl, rfl⟩
  · rw [wildcardPattern_of_outer outer.collapsed]
    exact IsNormal.collapsed_eq normal
  · intro text
    rw [matched_collapsed, openRun, matched_nil, one_mul]

/--
Mixed runs at both ends and inside of a value, and a text that falls into its
parts.
-/
theorem wildcardPattern_keeps_meaning_mixed :
    HasOuterWildcard "*b%**o%".toList ∧
      wildcardPattern "*b%**o%".toList = "%b%o%".toList ∧
      wildcardPattern "%b%o%".toList = "%b%o%".toList ∧
      "robot".toList ∈ matched isPercent "%b%o%".toList := by
  have outer : HasOuterWildcard "*b%**o%".toList :=
    ⟨'*', Or.inr rfl, Or.inl rfl⟩
  have pattern : wildcardPattern "*b%**o%".toList = "%b%o%".toList := by decide
  obtain ⟨-, -, -, fixed, sameTexts⟩ := wildcardPattern_keeps_meaning outer
  rw [pattern] at fixed sameTexts
  refine ⟨outer, pattern, fixed, (sameTexts _).mpr (mem_matched_iff.mpr ?_)⟩
  refine ⟨[['r', 'o'], ['b'], [], [], [], ['o'], ['t']], by decide, ?_⟩
  simp [isWildcard]

end SearchPhrase.FieldTest
