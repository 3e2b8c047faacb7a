import SearchPhrase.Proofs.Token.Joining

/-!
# Quoted values in phrases

A phrase cannot be cut if and only if one of its quoted values is left open.
Which quotes open a value is a matter of the text alone: outside of quoted
values every quote does, and a value ends at the first quote of the same kind
that no backslash takes as it is.  A text is balanced if it is put together from
such values and from other characters.

Every text is balanced or has a first quote that stays open.  The scanner leaves
a balanced text outside of quoted values, so it reports exactly that quote.
-/

namespace SearchPhrase.Token

/-! ## Texts with quotes -/

/--
How the content of a quoted value is written, and the value that it stands for.
A backslash takes the next character as it is.
-/
inductive Content (quote : Char) : List Char → List Char → Prop where
  | nil : Content quote [] []
  | plain {character : Char} {written value : List Char}
      (notQuote : character ≠ quote) (notBackslash : character ≠ '\\')
      (others : Content quote written value) :
      Content quote (character :: written) (character :: value)
  | escaped (character : Char) {written value : List Char}
      (others : Content quote written value) :
      Content quote ('\\' :: character :: written) (character :: value)

/-- The text after a quote does not close it. -/
def Unclosed (quote : Char) (text : List Char) : Prop :=
  ∀ written value rest, Content quote written value →
    text ≠ written ++ quote :: rest

/-- A text in which every quoted value is closed. -/
inductive Balanced : List Char → Prop where
  | nil : Balanced []
  | plain {character : Char} {rest : List Char}
      (notQuote : isQuote character = false) (others : Balanced rest) :
      Balanced (character :: rest)
  | quoted {quote : Char} {written value rest : List Char}
      (isQuote : isQuote quote = true) (content : Content quote written value)
      (others : Balanced rest) :
      Balanced (quote :: (written ++ quote :: rest))

/--
A text has an open quote right after a part in which all quoted values are
closed.
-/
def OpensAfter (before text : List Char) : Prop :=
  Balanced before ∧
    ∃ quote after, isQuote quote = true ∧ Unclosed quote after ∧
    text = before ++ quote :: after

/-! ## Closing quotes -/

/--
The rest of a quoted value: what it stands for, how it is written, and what
follows it.
-/
structure Closing where
  value : List Char
  written : List Char
  rest : List Char
deriving DecidableEq, Repr

/-- Add a character, and how it is written, to the front of a quoted value. -/
def Closing.cons (character : Char) (written : List Char) (closing : Closing) :
    Closing where
  value := character :: closing.value
  written := written ++ closing.written
  rest := closing.rest

/-- Look for the quote that closes a quoted value. -/
def closing? (quote : Char) : List Char → Option Closing
  | [] => none
  | character :: rest =>
      if character = '\\' then
        match rest with
        | [] => none
        | escaped :: others =>
            (closing? quote others).map (.cons escaped ['\\', escaped])
      else if character = quote then some ⟨[], [], rest⟩
      else (closing? quote rest).map (.cons character [character])

theorem closing?_of_plain
    {quote character : Char} (notQuote : character ≠ quote)
    (notBackslash : character ≠ '\\') (rest : List Char) :
    closing? quote (character :: rest) =
      (closing? quote rest).map (.cons character [character]) := by
  rw [closing?.eq_def]
  simp only [if_neg notBackslash, if_neg notQuote]

theorem closing?_of_quote {quote : Char} (notBackslash : quote ≠ '\\')
    (rest : List Char) :
    closing? quote (quote :: rest) = some ⟨[], [], rest⟩ := by
  rw [closing?.eq_def]
  simp only [if_neg notBackslash, if_true]

theorem closing?_of_content
    {quote : Char} (notBackslash : quote ≠ '\\') {written value : List Char}
    (content : Content quote written value) (rest : List Char) :
    closing? quote (written ++ quote :: rest) =
      some ⟨value, written, rest⟩ := by
  induction content with
  | nil => exact closing?_of_quote notBackslash rest
  | plain notQuote notBackslash others ih =>
      rw [List.cons_append, closing?_of_plain notQuote notBackslash, ih]
      rfl
  | escaped character others ih =>
      rw [List.cons_append, List.cons_append, closing?, if_pos rfl, ih]
      rfl

theorem content_of_closing?
    {quote : Char} {text : List Char} {closing : Closing}
    (found : closing? quote text = some closing) :
    Content quote closing.written closing.value ∧
      text = closing.written ++ quote :: closing.rest := by
  fun_induction closing? quote text generalizing closing with
  | case1 => cases found
  | case2 => cases found
  | case3 escaped others ih =>
      obtain ⟨inner, foundInner, rfl⟩ := Option.map_eq_some_iff.mp found
      obtain ⟨content, rfl⟩ := ih foundInner
      exact ⟨.escaped escaped content, rfl⟩
  | case4 rest =>
      cases found
      exact ⟨.nil, rfl⟩
  | case5 character rest notBackslash notQuote ih =>
      obtain ⟨inner, foundInner, rfl⟩ := Option.map_eq_some_iff.mp found
      obtain ⟨content, rfl⟩ := ih foundInner
      exact ⟨.plain notQuote notBackslash content, rfl⟩

/-- Looking for a closing quote finds it if there is one. -/
theorem closing?_eq_none_iff {quote : Char} (notBackslash : quote ≠ '\\')
    {text : List Char} :
    closing? quote text = none ↔ Unclosed quote text := by
  constructor
  · rintro missing written value rest content rfl
    rw [closing?_of_content notBackslash content rest] at missing
    cases missing
  · intro unclosed
    rw [Option.eq_none_iff_forall_ne_some]
    intro closing found
    obtain ⟨content, shape⟩ := content_of_closing? found
    exact unclosed _ _ _ content shape

theorem ne_backslash_of_isQuote {quote : Char}
    (isQuote : isQuote quote = true) :
    quote ≠ '\\' := by
  rintro rfl
  cases isQuote

/-! ## The first open quote -/

theorem OpensAfter.plain
    {character : Char} {before text : List Char}
    (notQuote : isQuote character = false) (opens : OpensAfter before text) :
    OpensAfter (character :: before) (character :: text) := by
  obtain ⟨balanced, quote, after, isQuote, unclosed, rfl⟩ := opens
  exact ⟨.plain notQuote balanced, quote, after, isQuote, unclosed, rfl⟩

theorem OpensAfter.quoted
    {quote : Char} {written value before text : List Char}
    (isQuote : isQuote quote = true)
    (content : Content quote written value) (opens : OpensAfter before text) :
    OpensAfter (quote :: (written ++ quote :: before))
      (quote :: (written ++ quote :: text)) := by
  obtain ⟨balanced, other, after, isOther, unclosed, rfl⟩ := opens
  exact ⟨.quoted isQuote content balanced, other, after, isOther, unclosed,
    by simp⟩

/--
Every text is balanced or has a first quote that stays open.  A quoted value is
skipped as a whole, so the induction is on the length of the text.
-/
theorem balanced_or_opensAfter (text : List Char) :
    Balanced text ∨ ∃ before, OpensAfter before text := by
  induction size :
      text.length using Nat.strong_induction_on generalizing text with
  | _ size ih =>
      cases text with
      | nil => exact Or.inl .nil
      | cons character rest =>
          rw [List.length_cons] at size
          cases kind : isQuote character with
          | false =>
              rcases ih rest.length (by omega) rest rfl with
                balanced | ⟨before, opens⟩
              · exact Or.inl (.plain kind balanced)
              · exact Or.inr ⟨_, opens.plain kind⟩
          | true =>
              cases found : closing? character rest with
              | none =>
                  have unclosed :=
                    (closing?_eq_none_iff (ne_backslash_of_isQuote kind)).mp
                      found
                  exact Or.inr ⟨[], .nil, character, rest, kind, unclosed, rfl⟩
              | some closing =>
                  obtain ⟨content, rfl⟩ := content_of_closing? found
                  rw [List.length_append, List.length_cons] at size
                  rcases ih closing.rest.length (by omega) closing.rest rfl with
                    balanced | ⟨before, opens⟩
                  · exact Or.inl (.quoted kind content balanced)
                  · exact Or.inr ⟨_, opens.quoted kind content⟩

/-! ## The scanner inside a quoted value -/

section Quoted

variable {quote : Char} {start offset : Nat} {latest : List Char}

theorem step_quoted_of_plain
    {character : Char} (notQuote : character ≠ quote)
    (notBackslash : character ≠ '\\') :
    (Progress.quoted start quote latest false).step offset character =
      ([], .quoted start quote (character :: latest) false) := by
  simp [Progress.step, notQuote, notBackslash]

theorem step_quoted_of_quote (notBackslash : quote ≠ '\\') :
    (Progress.quoted start quote latest false).step offset quote =
      ([⟨.value (String.ofList latest.reverse), start,
        offset + quote.utf8Size⟩], .idle) := by
  simp [Progress.step, notBackslash]

/-- The scanner leaves a quoted value at the quote that closes it. -/
theorem scan_quoted_of_content
    (notBackslash : quote ≠ '\\') {written value : List Char}
    (content : Content quote written value) (rest : List Char) :
    scan (.quoted start quote latest false) offset (written ++ quote :: rest) =
      (scan .idle (offset + String.utf8Len (written ++ [quote])) rest).map
        fun later =>
        [⟨.value (String.ofList (latest.reverse ++ value)), start,
          offset + String.utf8Len (written ++ [quote])⟩] ++ later := by
  induction content generalizing offset latest with
  | nil =>
      rw [List.nil_append, scan_cons_eq_map, step_quoted_of_quote notBackslash]
      simp
  | @plain character written value notQuote notBackslash others ih =>
      rw [List.cons_append,
        scan_cons_of_continuing (step_quoted_of_plain notQuote notBackslash),
        ih, List.cons_append, add_utf8Len_cons]
      simp
  | @escaped character written value others ih =>
      rw [List.cons_append, List.cons_append, scan_cons_of_continuing rfl,
        scan_cons_of_continuing rfl, ih, List.cons_append, List.cons_append,
        add_utf8Len_cons, add_utf8Len_cons]
      simp

/-- The scanner stays inside of a quoted value that nothing closes. -/
theorem scan_quoted_of_unclosed {text : List Char}
    (missing : closing? quote text = none) :
    scan (.quoted start quote latest false) offset text =
      .error ⟨.openQuote, start⟩ := by
  fun_induction closing? quote text generalizing offset latest with
  | case1 => rfl
  | case2 => rfl
  | case3 escaped others ih =>
      rw [scan_cons_of_continuing rfl, scan_cons_of_continuing rfl]
      exact ih (Option.map_eq_none_iff.mp missing)
  | case4 rest => cases missing
  | case5 character rest notBackslash notQuote ih =>
      rw [scan_cons_of_continuing (step_quoted_of_plain notQuote notBackslash)]
      exact ih (Option.map_eq_none_iff.mp missing)

end Quoted

/-! ## The scanner outside of quoted values -/

/-- Progress that is not inside a quoted value. -/
def Progress.isOutside : Progress → Bool
  | .quoted _ _ _ _ => false
  | _ => true

theorem isOutside_begin
    {character : Char} (notQuote : isQuote character = false) (offset : Nat) :
    (Progress.begin offset character).2.isOutside = true := by
  unfold Progress.begin
  rw [if_neg (c := isQuote character = true) (by simp [notQuote])]
  repeat' split
  all_goals rfl

theorem isOutside_step
    {progress : Progress} (outside : progress.isOutside = true)
    {character : Char} (notQuote : isQuote character = false) (offset : Nat) :
    (progress.step offset character).2.isOutside = true := by
  cases progress with
  | idle => exact isOutside_begin notQuote offset
  | word start latest =>
      rw [Progress.step]
      split
      · exact isOutside_begin notQuote offset
      · rfl
  | symbol start first =>
      rw [Progress.step]
      split
      · rfl
      · exact isOutside_begin notQuote offset
  | quoted start quote latest escaped => cases outside

theorem eq_or_eq_of_isQuote {quote : Char} (isQuote : isQuote quote = true) :
    quote = '"' ∨ quote = '\'' := by
  simpa [Token.isQuote] using isQuote

theorem begin_of_isQuote {quote : Char} (isQuote : isQuote quote = true)
    (offset : Nat) :
    Progress.begin offset quote = ([], .quoted offset quote [] false) := by
  rcases eq_or_eq_of_isQuote isQuote with rfl | rfl <;> rfl

/-- Outside of quoted values every quote opens one. -/
theorem step_of_isQuote
    {progress : Progress} (outside : progress.isOutside = true) {quote : Char}
    (isQuote : isQuote quote = true) (offset : Nat) :
    (progress.step offset quote).2 = .quoted offset quote [] false := by
  cases progress with
  | idle => rw [Progress.step, begin_of_isQuote isQuote]
  | word start latest =>
      have ends : isDelimiter quote = true := by simp [isDelimiter, isQuote]
      rw [Progress.step, if_pos ends, begin_of_isQuote isQuote]
  | symbol start first =>
      have notSymbol : isSymbol quote = false := by
        rcases eq_or_eq_of_isQuote isQuote with rfl | rfl <;> rfl
      simp only [Progress.step, ofPair?_eq_none_of_not_isSymbol notSymbol,
        begin_of_isQuote isQuote]
  | quoted start quote latest escaped => cases outside

theorem exists_finish_of_isOutside
    {progress : Progress} (outside : progress.isOutside = true) (offset : Nat) :
    ∃ tokens, progress.finish offset = .ok tokens := by
  cases progress with
  | idle | word | symbol => exact ⟨_, rfl⟩
  | quoted => cases outside

/--
A balanced text leaves the scanner outside of quoted values, whatever follows
it.
-/
theorem scan_append_of_balanced
    {text : List Char} (balanced : Balanced text) {progress : Progress}
    (outside : progress.isOutside = true) (offset : Nat) :
    ∃ tokens next, next.isOutside = true ∧
      ∀ rest, scan progress offset (text ++ rest) =
        (scan next (offset + String.utf8Len text) rest).map fun later =>
          tokens ++ later := by
  induction balanced generalizing progress offset with
  | nil =>
      exact ⟨[], progress, outside, fun rest => (congrFun Except.map_id _).symm⟩
  | @plain character text notQuote _ ih =>
      obtain ⟨tokens, next, nextOutside, scanned⟩ :=
        ih (isOutside_step outside notQuote offset)
          (offset + character.utf8Size)
      refine ⟨(progress.step offset character).1 ++ tokens, next, nextOutside,
        fun rest => ?_⟩
      rw [List.cons_append, scan_cons_eq_map, scanned, map_append_map_append,
        add_utf8Len_cons]
  | @quoted quote written value text isQuote content _ ih =>
      have notBackslash := ne_backslash_of_isQuote isQuote
      let stop := offset + quote.utf8Size + String.utf8Len (written ++ [quote])
      let token : Token := ⟨.value (String.ofList value), offset, stop⟩
      obtain ⟨tokens, next, nextOutside, scanned⟩ :=
        ih (show Progress.idle.isOutside = true from rfl) stop
      refine ⟨(progress.step offset quote).1 ++ [token] ++ tokens, next,
        nextOutside, fun rest => ?_⟩
      have size :
          offset + String.utf8Len (quote :: (written ++ quote :: text)) =
            stop + String.utf8Len text := by
        simp only [stop, String.utf8Len_append, String.utf8Len_cons,
          String.utf8Len_nil]
        omega
      rw [List.cons_append, List.append_assoc, List.cons_append,
        scan_cons_eq_map, step_of_isQuote outside isQuote,
        scan_quoted_of_content notBackslash content, scanned,
        map_append_map_append, map_append_map_append, size]
      rfl

/-! ## Phrases that cannot be cut -/

theorem exists_ofPhrase_of_balanced {phrase : String}
    (balanced : Balanced phrase.toList) :
    ∃ tokens, ofPhrase phrase = .ok tokens := by
  obtain ⟨tokens, next, outside, scanned⟩ :=
    scan_append_of_balanced balanced
      (show Progress.idle.isOutside = true from rfl) 0
  obtain ⟨last, finished⟩ :=
    exists_finish_of_isOutside outside (0 + String.utf8Len phrase.toList)
  have whole := scanned []
  rw [List.append_nil, scan, finished] at whole
  exact ⟨tokens ++ last, whole⟩

theorem ofPhrase_of_opensAfter
    {phrase : String} {before : List Char}
    (opens : OpensAfter before phrase.toList) :
    ofPhrase phrase = .error ⟨.openQuote, String.utf8Len before⟩ := by
  obtain ⟨balanced, quote, after, isQuote, unclosed, shape⟩ := opens
  obtain ⟨tokens, next, outside, scanned⟩ :=
    scan_append_of_balanced balanced
      (show Progress.idle.isOutside = true from rfl) 0
  have missing :=
    (closing?_eq_none_iff (ne_backslash_of_isQuote isQuote)).mpr unclosed
  rw [ofPhrase, shape, scanned, scan_cons_eq_map,
    step_of_isQuote outside isQuote, scan_quoted_of_unclosed missing,
    Nat.zero_add]
  rfl

/--
A phrase cannot be cut if and only if it has an open quote, which is then
reported.
-/
theorem ofPhrase_eq_error_iff {phrase : String} {error : PhraseError} :
    ofPhrase phrase = .error error ↔
      ∃ before, OpensAfter before phrase.toList ∧
        error = ⟨.openQuote, String.utf8Len before⟩ := by
  constructor
  · intro failed
    rcases balanced_or_opensAfter phrase.toList with balanced | ⟨before, opens⟩
    · obtain ⟨tokens, cut⟩ := exists_ofPhrase_of_balanced balanced
      rw [cut] at failed
      cases failed
    · refine ⟨before, opens, ?_⟩
      rw [ofPhrase_of_opensAfter opens] at failed
      exact (Except.error.inj failed).symm
  · rintro ⟨before, opens, rfl⟩
    exact ofPhrase_of_opensAfter opens

end SearchPhrase.Token
