import SearchPhrase.Token

/-!
# Writing tokens

A text that is put together from chunks is cut into tokens chunk by chunk, if
each chunk ends where a token ends, whatever follows it.  This module gives such
chunks: blanks, parentheses, quoted values, and operators and connectives with a
blank after them.
-/

namespace SearchPhrase.Token

/-- A text is cut into tokens of the given kinds, wherever it starts. -/
def Cuts (text : List Char) (kinds : List Kind) : Prop :=
  ∀ offset, ∃ tokens,
    scan .idle offset text = .ok tokens ∧ tokens.map Token.kind = kinds

/-- A chunk in front of any text adds tokens of the given kinds. -/
def Writes (chunk : List Char) (kinds : List Kind) : Prop :=
  ∀ rest others, Cuts rest others → Cuts (chunk ++ rest) (kinds ++ others)

theorem cuts_nil : Cuts [] [] := by
  intro offset
  exact ⟨[], rfl, rfl⟩

/-- What one step of the scanner and the rest of the scan give together. -/
theorem scan_cons
    {progress next : Progress} {offset : Nat} {character : Char}
    {rest : List Char} {tokens later : List Token}
    (stepped : progress.step offset character = (tokens, next))
    (scanned : scan next (offset + character.utf8Size) rest = .ok later) :
    scan progress offset (character :: rest) = .ok (tokens ++ later) := by
  rw [scan, stepped]
  simp only [scanned]

/-! ## Chunks one after the other -/

theorem Writes.append
    {first second : List Char} {kinds others : List Kind}
    (firstWrites : Writes first kinds) (secondWrites : Writes second others) :
    Writes (first ++ second) (kinds ++ others) := by
  intro rest following cut
  rw [List.append_assoc, List.append_assoc]
  exact firstWrites _ _ (secondWrites _ _ cut)

/-- A chunk that nothing follows is cut into the tokens that it writes. -/
theorem Writes.cuts
    {chunk : List Char} {kinds : List Kind} (writes : Writes chunk kinds) :
    Cuts chunk kinds := by
  have cut := writes [] [] cuts_nil
  rwa [List.append_nil, List.append_nil] at cut

/-! ## Chunks of one token -/

theorem writes_blank : Writes [' '] [] := by
  intro rest others cut offset
  rcases cut (offset + ' '.utf8Size) with ⟨tokens, scanned, same⟩
  exact ⟨_, scan_cons rfl scanned, same⟩

theorem writes_opening : Writes ['('] [.opening] := by
  intro rest others cut offset
  rcases cut (offset + '('.utf8Size) with ⟨tokens, scanned, rfl⟩
  exact ⟨_, scan_cons rfl scanned, rfl⟩

theorem writes_closing : Writes [')'] [.closing] := by
  intro rest others cut offset
  rcases cut (offset + ')'.utf8Size) with ⟨tokens, scanned, rfl⟩
  exact ⟨_, scan_cons rfl scanned, rfl⟩

/-- The token of an operator is cut off by the blank after it. -/
theorem writes_operator (operator : Comparison) :
    Writes (operator.token.toList ++ [' ']) [.comparison operator] := by
  intro rest others cut offset
  cases operator with
  | equal | greater | less | like =>
      rcases cut (offset + 1 + 1) with ⟨tokens, scanned, rfl⟩
      exact ⟨_, scan_cons rfl (scan_cons rfl scanned), rfl⟩
  | different | greaterOrEqual | lessOrEqual | unlike =>
      rcases cut (offset + 1 + 1 + 1) with ⟨tokens, scanned, rfl⟩
      exact ⟨_, scan_cons rfl (scan_cons rfl (scan_cons rfl scanned)), rfl⟩

/-- The keyword of a connective is cut off by the blank after it. -/
theorem writes_connective (connective : Connective) :
    Writes (connective.name.toList ++ [' ']) [.connective connective] := by
  intro rest others cut offset
  cases connective with
  | and | not =>
      rcases cut (offset + 1 + 1 + 1 + 1) with ⟨tokens, scanned, rfl⟩
      exact ⟨_,
        scan_cons rfl (scan_cons rfl (scan_cons rfl (scan_cons rfl scanned))),
        rfl⟩
  | or =>
      rcases cut (offset + 1 + 1 + 1) with ⟨tokens, scanned, rfl⟩
      exact ⟨_, scan_cons rfl (scan_cons rfl (scan_cons rfl scanned)), rfl⟩

/-! ## Quoted values -/

/--
A character of a quoted value, with a backslash before a quote or a backslash.
-/
def escaped (character : Char) : List Char :=
  if character = '"' ∨ character = '\\' then ['\\', character] else [character]

/-- A value between quotes. -/
def quoted (value : String) : List Char :=
  '"' :: value.toList.flatMap escaped ++ ['"']

/--
The rest of a quoted value is added to the characters that were read before.
-/
theorem scan_quoted
    {rest : List Char} {others : List Kind} (cut : Cuts rest others)
    (start offset : Nat) (latest text : List Char) :
    ∃ tokens,
      scan (.quoted start '"' latest false) offset
        (text.flatMap escaped ++ '"' :: rest) =
          .ok tokens ∧
        tokens.map Token.kind =
          .value (String.ofList (latest.reverse ++ text)) :: others := by
  induction text generalizing offset latest with
  | nil =>
      rcases cut (offset + '"'.utf8Size) with ⟨tokens, scanned, rfl⟩
      refine ⟨_, scan_cons rfl scanned, ?_⟩
      simp
  | cons character text ih =>
      rw [List.flatMap_cons, List.append_assoc]
      by_cases special : character = '"' ∨ character = '\\'
      · rw [escaped, if_pos special]
        rcases ih (offset + '\\'.utf8Size + character.utf8Size)
            (character :: latest) with
          ⟨tokens, scanned, same⟩
        refine ⟨_, scan_cons rfl (scan_cons rfl scanned), ?_⟩
        simpa using same
      · rw [escaped, if_neg special]
        rcases ih (offset + character.utf8Size) (character :: latest) with
          ⟨tokens, scanned, same⟩
        have stepped :
            (Progress.quoted start '"' latest false).step offset character =
              ([], .quoted start '"' (character :: latest) false) := by
          simp only [not_or] at special
          simp [Progress.step, special.1, special.2]
        refine ⟨_, scan_cons stepped scanned, ?_⟩
        simpa using same

/-- A quoted value is read as the value, whatever its characters are. -/
theorem writes_quoted (value : String) :
    Writes (quoted value) [.value value] := by
  intro rest others cut offset
  rcases scan_quoted cut offset (offset + '"'.utf8Size) [] value.toList with
    ⟨tokens, scanned, same⟩
  refine ⟨[] ++ tokens, ?_, ?_⟩
  · rw [quoted, List.append_assoc]
    exact scan_cons rfl scanned
  · simpa using same

end SearchPhrase.Token
