import SearchPhrase.Proofs.Token.Spans

/-!
# Phrases that are joined by blanks

Two phrases with blanks between them are cut into the tokens of the first phrase
and the tokens of the second one, where the offsets of the second phrase count
from the start of the whole.  Nothing that the scanner remembers gets across a
blank: a word and a symbol end before it just as they end with the phrase, and a
quoted value that is open makes the first phrase fail.  What the scanner does
with the rest does not depend on where the rest stands, so the second phrase is
cut as it is cut alone.
-/

namespace SearchPhrase

/--
An error as it is reported for a phrase that has a given number of bytes in
front.
-/
def PhraseError.shifted (distance : Nat) (error : PhraseError) : PhraseError :=
  { error with position := error.position + distance }

namespace Token

/--
A token as it is cut from a phrase that has a given number of bytes in front.
-/
def shifted (distance : Nat) (token : Token) : Token :=
  { token with start := token.start + distance, stop := token.stop + distance }

/-! ## Scanning elsewhere -/

/--
Progress at the same characters of a phrase with a given number of bytes in
front.
-/
def Progress.shifted (distance : Nat) : Progress → Progress
  | .idle => .idle
  | .word start latest => .word (start + distance) latest
  | .symbol start first => .symbol (start + distance) first
  | .quoted start quote latest escaped =>
      .quoted (start + distance) quote latest escaped

/--
What reading a character gives in a phrase with a given number of bytes in
front.
-/
def shiftedStep (distance : Nat) (result : List Token × Progress) :
    List Token × Progress :=
  (result.1.map (shifted distance), result.2.shifted distance)

/--
What cutting a phrase gives for the phrase with a given number of bytes in
front.
-/
def shiftedOutcome (distance : Nat) :
    Except PhraseError (List Token) → Except PhraseError (List Token)
  | .ok tokens => .ok (tokens.map (shifted distance))
  | .error error => .error (error.shifted distance)

namespace Progress

theorem begin_shifted (distance offset : Nat) (character : Char) :
    Progress.begin (offset + distance) character =
      shiftedStep distance (Progress.begin offset character) := by
  have stop : offset + distance + character.utf8Size =
      offset + character.utf8Size + distance := Nat.add_right_comm _ _ _
  unfold Progress.begin
  rw [stop]
  repeat' split
  all_goals rfl

theorem step_shifted (distance offset : Nat) (character : Char)
    (progress : Progress) :
    (progress.shifted distance).step (offset + distance) character =
      shiftedStep distance (progress.step offset character) := by
  have stop : offset + distance + character.utf8Size =
      offset + character.utf8Size + distance := Nat.add_right_comm _ _ _
  cases progress with
  | idle => exact begin_shifted distance offset character
  | word start latest =>
      rw [Progress.shifted, Progress.step, Progress.step, begin_shifted]
      split <;> rfl
  | symbol start first =>
      rw [Progress.shifted, Progress.step, Progress.step, begin_shifted, stop]
      split <;> rfl
  | quoted start quote latest escaped =>
      rw [Progress.shifted, Progress.step, Progress.step, stop]
      repeat' split
      all_goals rfl

theorem finish_shifted (distance offset : Nat) (progress : Progress) :
    (progress.shifted distance).finish (offset + distance) =
      shiftedOutcome distance (progress.finish offset) := by
  cases progress <;> rfl

end Progress

theorem scan_cons_eq_map
    (progress : Progress) (offset : Nat) (character : Char) (rest : List Char) :
    scan progress offset (character :: rest) =
      (scan (progress.step offset character).2 (offset + character.utf8Size)
        rest).map
        fun later => (progress.step offset character).1 ++ later := by
  simp only [scan]
  cases scan (progress.step offset character).2 (offset + character.utf8Size)
      rest <;> rfl

/-- A character that completes no token is only remembered. -/
theorem scan_cons_of_continuing
    {progress next : Progress} {offset : Nat} {character : Char}
    (stepped : progress.step offset character = ([], next)) (rest : List Char) :
    scan progress offset (character :: rest) =
      scan next (offset + character.utf8Size) rest := by
  rw [scan_cons_eq_map, stepped]
  exact congrFun Except.map_id _

theorem map_append_map_append
    (first second : List Token) (outcome : Except PhraseError (List Token)) :
    (outcome.map fun later => second ++ later).map
        (fun later => first ++ later) =
      outcome.map fun later => first ++ second ++ later := by
  cases outcome with
  | error error => rfl
  | ok later => simp [Except.map]

/-- The offset after a text counts its first character and then the others. -/
theorem add_utf8Len_cons (offset : Nat) (character : Char) (rest : List Char) :
    offset + String.utf8Len (character :: rest) =
      offset + character.utf8Size + String.utf8Len rest := by
  rw [String.utf8Len_cons, Nat.add_comm (String.utf8Len rest), Nat.add_assoc]

theorem shiftedOutcome_map_append
    (distance : Nat) (tokens : List Token)
    (outcome : Except PhraseError (List Token)) :
    shiftedOutcome distance (outcome.map fun later => tokens ++ later) =
      (shiftedOutcome distance outcome).map fun later =>
        tokens.map (shifted distance) ++ later := by
  cases outcome with
  | error error => rfl
  | ok later => simp [shiftedOutcome, Except.map]

/-- A text is cut in the same way wherever it stands. -/
theorem scan_shifted (distance offset : Nat) (progress : Progress)
    (text : List Char) :
    scan (progress.shifted distance) (offset + distance) text =
      shiftedOutcome distance (scan progress offset text) := by
  induction text generalizing progress offset with
  | nil => exact Progress.finish_shifted distance offset progress
  | cons character rest ih =>
      rw [scan_cons_eq_map, scan_cons_eq_map, Progress.step_shifted,
        shiftedStep, Nat.add_right_comm, ih, shiftedOutcome_map_append]

/-! ## Pairs of symbols -/

theorem isSymbol_iff {character : Char} :
    isSymbol character = true ↔
      character = '&' ∨ character = '|' ∨ character = '!' ∨ character = '=' ∨
        character = '<' ∨ character = '>' ∨ character = '~' := by
  simp [isSymbol]

/-- The operators that are written by two characters. -/
theorem pair_of_ofToken?_eq_some
    {first second : Char} {operator : Comparison}
    (written :
      Comparison.ofToken? (String.ofList [first, second]) = some operator) :
    (first, second) ∈
      [('=', '='), ('<', '>'), ('!', '='), ('>', '='), ('<', '='),
        ('!', '~')] := by
  have characters {text : String}
      (same : String.ofList [first, second] = text) :
      text.toList = [first, second] := by
    rw [← same, String.toList_ofList]
  unfold Comparison.ofToken? at written
  split at written
  · next same =>
      obtain ⟨rfl, rfl⟩ : '=' = first ∧ '=' = second := by
        simpa using characters (beq_iff_eq.mp same)
      decide
  · split at written
    · next same =>
        obtain ⟨rfl, rfl⟩ : '<' = first ∧ '>' = second := by
          simpa using characters (beq_iff_eq.mp same)
        decide
    · have found : operator.token == String.ofList [first, second] := by
        simpa using List.find?_some written
      have same := characters (beq_iff_eq.mp found).symm
      cases operator with
      | different | greaterOrEqual | lessOrEqual | unlike =>
          simp [Comparison.token] at same
          simp [← same]
      | equal | greater | less | like => simp [Comparison.token] at same

/-- Only a symbol goes together with the symbol before it. -/
theorem isSymbol_of_ofPair?_eq_some
    {first second : Char} {kind : Kind}
    (pair : Kind.ofPair? first second = some kind) :
    isSymbol second = true := by
  unfold Kind.ofPair? at pair
  split at pair
  · next both =>
      have same : second = '&' := by
        simpa using (Bool.and_eq_true_iff.mp both).2
      rw [same]
      decide
  · split at pair
    · next both =>
        have same : second = '|' := by
          simpa using (Bool.and_eq_true_iff.mp both).2
        rw [same]
        decide
    · obtain ⟨operator, written, -⟩ := Option.map_eq_some_iff.mp pair
      have member := pair_of_ofToken?_eq_some written
      simp only [List.mem_cons, Prod.mk.injEq, List.not_mem_nil,
        or_false] at member
      rcases member with
        ⟨-, rfl⟩ | ⟨-, rfl⟩ | ⟨-, rfl⟩ | ⟨-, rfl⟩ | ⟨-, rfl⟩ | ⟨-, rfl⟩
      all_goals decide

theorem ofPair?_eq_none_of_not_isSymbol
    {second : Char} (notSymbol : isSymbol second = false) (first : Char) :
    Kind.ofPair? first second = none := by
  rw [Option.eq_none_iff_forall_ne_some]
  intro kind pair
  rw [isSymbol_of_ofPair?_eq_some pair] at notSymbol
  cases notSymbol

/-! ## Blanks -/

theorem isSymbol_eq_false_of_isBlank
    {character : Char} (blank : Text.isBlank character = true) :
    isSymbol character = false := by
  rw [Bool.eq_false_iff]
  intro symbol
  rcases isSymbol_iff.mp symbol with rfl | rfl | rfl | rfl | rfl | rfl | rfl
  all_goals exact absurd blank (by decide)

theorem begin_of_isBlank
    {blank : Char} (isBlank : Text.isBlank blank = true) (offset : Nat) :
    Progress.begin offset blank = ([], .idle) := by
  rw [Progress.begin, if_pos isBlank]

/-- A blank completes the token in progress as the end of the phrase does. -/
theorem step_of_isBlank
    {progress : Progress} {offset : Nat} {tokens : List Token}
    (finished : progress.finish offset = .ok tokens)
    {blank : Char} (isBlank : Text.isBlank blank = true) :
    progress.step offset blank = (tokens, .idle) := by
  cases progress with
  | idle =>
      cases finished
      exact begin_of_isBlank isBlank offset
  | word start latest =>
      cases finished
      have ends : isDelimiter blank = true := by simp [isDelimiter, isBlank]
      rw [Progress.step, if_pos ends, begin_of_isBlank isBlank]
  | symbol start first =>
      cases finished
      have alone : Kind.ofPair? first blank = none :=
        ofPair?_eq_none_of_not_isSymbol
          (isSymbol_eq_false_of_isBlank isBlank) first
      simp only [Progress.step, alone, begin_of_isBlank isBlank]
  | quoted start quote latest escaped => cases finished

/-- A blank ends a text that can be cut, whatever follows it. -/
theorem scan_append_blank
    {progress : Progress} {offset : Nat} {text : List Char}
    {tokens : List Token} (scanned : scan progress offset text = .ok tokens)
    {blank : Char} (isBlank : Text.isBlank blank = true) (rest : List Char) :
    scan progress offset (text ++ blank :: rest) =
      (scan .idle (offset + String.utf8Len text + blank.utf8Size) rest).map
        fun later => tokens ++ later := by
  induction text generalizing progress offset tokens with
  | nil =>
      rw [List.nil_append, scan_cons_eq_map, step_of_isBlank scanned isBlank]
      rfl
  | cons character text ih =>
      obtain ⟨later, scannedText, rfl⟩ := scan_cons_eq_ok scanned
      rw [List.cons_append, scan_cons_eq_map, ih scannedText,
        map_append_map_append, add_utf8Len_cons]

theorem scan_idle_of_isBlank
    {blank : Char} (isBlank : Text.isBlank blank = true) (offset : Nat)
    (rest : List Char) :
    scan .idle offset (blank :: rest) =
      scan .idle (offset + blank.utf8Size) rest := by
  have stepped : Progress.idle.step offset blank = ([], .idle) :=
    begin_of_isBlank isBlank offset
  exact scan_cons_of_continuing stepped rest

theorem scan_idle_blanks
    {blanks : List Char}
    (areBlank : ∀ blank ∈ blanks, Text.isBlank blank = true)
    (offset : Nat) (rest : List Char) :
    scan .idle offset (blanks ++ rest) =
      scan .idle (offset + String.utf8Len blanks) rest := by
  induction blanks generalizing offset with
  | nil => rfl
  | cons blank blanks ih =>
      obtain ⟨isBlank, others⟩ := List.forall_mem_cons.mp areBlank
      rw [List.cons_append, scan_idle_of_isBlank isBlank, ih others,
        add_utf8Len_cons]

/--
Blanks separate a text that can be cut from the rest, which is cut as it is cut
alone.
-/
theorem scan_append_blanks
    {progress : Progress} {offset : Nat} {text blanks : List Char}
    {tokens : List Token}
    (scanned : scan progress offset text = .ok tokens) (nonempty : blanks ≠ [])
    (areBlank : ∀ blank ∈ blanks, Text.isBlank blank = true)
    (rest : List Char) :
    scan progress offset (text ++ blanks ++ rest) =
      (shiftedOutcome (offset + String.utf8Len (text ++ blanks))
        (scan .idle 0 rest)).map
        fun later => tokens ++ later := by
  obtain ⟨blank, others, rfl⟩ := List.exists_cons_of_ne_nil nonempty
  obtain ⟨isBlank, othersBlank⟩ := List.forall_mem_cons.mp areBlank
  have size :
      offset + String.utf8Len text + blank.utf8Size + String.utf8Len others =
        0 + (offset + String.utf8Len (text ++ blank :: others)) := by
    rw [String.utf8Len_append, String.utf8Len_cons]
    omega
  rw [List.append_assoc, List.cons_append, scan_append_blank scanned isBlank,
    scan_idle_blanks othersBlank, size, ← scan_shifted]
  rfl

/--
Two phrases with blanks between them are cut into the tokens of the one and the
shifted tokens of the other; if the second phrase cannot be cut, its error is
shifted.
-/
theorem ofPhrase_append_blanks
    {first blanks second : String} {tokens : List Token}
    (cut : ofPhrase first = .ok tokens) (nonempty : blanks ≠ "")
    (areBlank : ∀ blank ∈ blanks.toList, Text.isBlank blank = true) :
    (∀ later, ofPhrase second = .ok later →
      ofPhrase (first ++ blanks ++ second) =
        .ok (tokens ++ later.map (shifted (first ++ blanks).utf8ByteSize))) ∧
      ∀ error, ofPhrase second = .error error →
        ofPhrase (first ++ blanks ++ second) =
          .error (error.shifted (first ++ blanks).utf8ByteSize) := by
  have nonemptyList : blanks.toList ≠ [] := by simpa using nonempty
  have joined : ofPhrase (first ++ blanks ++ second) =
      (shiftedOutcome (first ++ blanks).utf8ByteSize (ofPhrase second)).map
        fun later => tokens ++ later := by
    have scanned := scan_append_blanks cut nonemptyList areBlank second.toList
    rwa [← String.toList_append, ← String.toList_append, String.utf8Len_toList,
      Nat.zero_add] at scanned
  rw [joined]
  constructor
  · intro later cutSecond
    rw [cutSecond]
    rfl
  · intro error failed
    rw [failed]
    rfl

/--
An em space keeps two symbols apart; the offsets after it count its three bytes.
-/
theorem ofPhrase_append_blanks_symbols :
    ofPhrase "ä<" = .ok [⟨.value "ä", 0, 2⟩, ⟨.comparison .less, 2, 3⟩] ∧
      ofPhrase ("ä<" ++ "\u2003" ++ "=b") =
        .ok [⟨.value "ä", 0, 2⟩, ⟨.comparison .less, 2, 3⟩,
          ⟨.comparison .equal, 6, 7⟩, ⟨.value "b", 7, 8⟩] ∧
      ofPhrase ("ä<" ++ "\u2003" ++ "= 'b") = .error ⟨.openQuote, 8⟩ := by
  have cut :
      ofPhrase "ä<" = .ok [⟨.value "ä", 0, 2⟩, ⟨.comparison .less, 2, 3⟩] := by
    decide
  have nonempty : "\u2003" ≠ "" := by decide
  have areBlank : ∀ blank ∈ "\u2003".toList, Text.isBlank blank = true := by
    have single : "\u2003".toList = ['\u2003'] := by decide
    rw [single, List.forall_mem_singleton]
    decide
  refine ⟨cut, ?_, ?_⟩
  · exact (ofPhrase_append_blanks cut nonempty areBlank).1
      [⟨.comparison .equal, 0, 1⟩, ⟨.value "b", 1, 2⟩] (by decide)
  · exact (ofPhrase_append_blanks cut nonempty areBlank).2 ⟨.openQuote, 2⟩
      (by decide)

end Token

end SearchPhrase
