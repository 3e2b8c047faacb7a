import SearchPhrase.Proofs.Text.FormEncoding
import SearchPhrase.Text.Blank
import SearchPhrase.Text.Substitution

/-!
# Replacing around equals signs

The patterns that query strings replace all have an equals sign as their second
character.  A part of a text is therefore copied if the first two characters of
the pattern occur nowhere in it and do not meet at its end.
-/

namespace SearchPhrase.Text

section Patterns

variable {first : Char} {tail replacement : List Char}

theorem isPrefixOf_of_head
    {character : Char} {rest : List Char}
    (differs : character ≠ first ∨ rest.head? ≠ some '=') :
    (first :: '=' :: tail).isPrefixOf (character :: rest) = false := by
  cases rest with
  | nil => simp [List.isPrefixOf]
  | cons second others =>
      rcases differs with notFirst | notEquals
      · simp [List.isPrefixOf, Ne.symm notFirst]
      · simp only [List.head?_cons, ne_eq, Option.some.injEq] at notEquals
        simp [List.isPrefixOf, Ne.symm notEquals]

theorem replaceAfter_cons
    {character : Char} {rest : List Char}
    (differs : character ≠ first ∨ rest.head? ≠ some '=') :
    replaceAfter (first :: '=' :: tail) replacement 0 (character :: rest) =
      character :: replaceAfter (first :: '=' :: tail) replacement 0 rest := by
  rw [replaceAfter, isPrefixOf_of_head differs]
  simp

/--
A part in which no occurrence of the pattern starts is copied, provided that its
last character starts none either.
-/
theorem replaceAfter_append
    {chunk rest : List Char}
    (absent : ¬ [first, '='] <:+: chunk)
    (apart : chunk.getLast? ≠ some first ∨ rest.head? ≠ some '=') :
    replaceAfter (first :: '=' :: tail) replacement 0 (chunk ++ rest) =
      chunk ++ replaceAfter (first :: '=' :: tail) replacement 0 rest := by
  induction chunk with
  | nil => rfl
  | cons character others ih =>
      rw [List.infix_cons_iff, not_or] at absent
      cases others with
      | nil =>
          have differs : character ≠ first ∨ rest.head? ≠ some '=' := by
            simpa using apart
          exact replaceAfter_cons differs
      | cons second more =>
          have differs :
              character ≠ first ∨
                (second :: more ++ rest).head? ≠ some '=' := by
            by_cases same : character = first
            · right
              intro equals
              rw [List.cons_append, List.head?_cons,
                Option.some.injEq] at equals
              exact absent.1 ⟨more, by simp [same, equals]⟩
            · exact Or.inl same
          rw [List.cons_append, replaceAfter_cons differs,
            ih absent.2 (by simpa using apart)]
          rfl

theorem replaceAfter_append_of_notMem
    {chunk : List Char} (absent : first ∉ chunk) (rest : List Char) :
    replaceAfter (first :: '=' :: tail) replacement 0 (chunk ++ rest) =
      chunk ++ replaceAfter (first :: '=' :: tail) replacement 0 rest := by
  refine replaceAfter_append ?_ (Or.inl ?_)
  · intro occurs
    exact absent (occurs.mem List.mem_cons_self)
  · intro last
    exact absent (List.mem_of_getLast? last)

theorem replaceAfter_skipped (pattern : List Char) (skipped rest : List Char) :
    replaceAfter pattern replacement skipped.length (skipped ++ rest) =
      replaceAfter pattern replacement 0 rest := by
  induction skipped with
  | nil => rfl
  | cons character others ih => exact ih

theorem replaceAfter_pattern (rest : List Char) :
    replaceAfter (first :: '=' :: tail) replacement 0
        (first :: '=' :: tail ++ rest) =
      replacement ++ replaceAfter (first :: '=' :: tail) replacement 0
        rest := by
  have occurs :
      (first :: '=' :: tail).isPrefixOf (first :: '=' :: tail ++ rest) =
        true := by
    rw [List.isPrefixOf_iff_prefix]
    exact List.prefix_append _ rest
  rw [List.cons_append, List.cons_append, replaceAfter]
  simp only [List.cons_append] at occurs
  rw [if_pos occurs]
  exact congrArg (replacement ++ ·)
    (replaceAfter_skipped (first :: '=' :: tail) ('=' :: tail) rest)

end Patterns

/-! ## Blanks and encoded texts -/

theorem isAlphanum_bounds {character : Char}
    (alphanumeric : character.isAlphanum = true) :
    0x30 ≤ character.toNat ∧ character.toNat ≤ 0x7A := by
  change ((decide (0x41 ≤ character.val ∧ character.val ≤ 0x5A) ||
      (decide (0x61 ≤ character.val) && decide (character.val ≤ 0x7A))) ||
    (decide (0x30 ≤ character.val) && decide (character.val ≤ 0x39))) =
      true at alphanumeric
  simp only [Bool.or_eq_true, Bool.and_eq_true, decide_eq_true_eq,
    UInt32.le_iff_toNat_le] at alphanumeric
  change ((0x41 ≤ character.toNat ∧ character.toNat ≤ 0x5A) ∨
      (0x61 ≤ character.toNat ∧ character.toNat ≤ 0x7A)) ∨
    (0x30 ≤ character.toNat ∧ character.toNat ≤ 0x39) at alphanumeric
  omega

theorem isFormCharacter_bounds
    {character : Char} (form : FormEncoding.isFormCharacter character = true) :
    0x21 ≤ character.toNat ∧ character.toNat < 0x80 := by
  rw [FormEncoding.isFormCharacter, Bool.or_eq_true,
    List.contains_iff_mem] at form
  rcases form with alphanumeric | mark
  · have bounds := isAlphanum_bounds alphanumeric
    omega
  · have marks :
        "*-._+%".toList.all
          (fun mark => 0x21 ≤ mark.toNat ∧ mark.toNat < 0x80) = true := by
      decide
    exact of_decide_eq_true (List.all_eq_true.mp marks character mark)

theorem isBlank_of_visible
    {character : Char}
    (bounds : 0x21 ≤ character.toNat ∧ character.toNat < 0x80) :
    isBlank character = false := by
  simp only [isBlank, Bool.or_eq_false_iff, Bool.and_eq_false_iff,
    decide_eq_false_iff_not, beq_eq_false_iff_ne, ne_eq]
  omega

theorem isBlank_of_isFormCharacter
    {character : Char} (form : FormEncoding.isFormCharacter character = true) :
    isBlank character = false :=
  isBlank_of_visible (isFormCharacter_bounds form)

end SearchPhrase.Text
