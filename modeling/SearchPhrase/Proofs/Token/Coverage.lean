import SearchPhrase.Proofs.Token.Lookahead

/-!
# What tokens account for

Cutting a phrase loses nothing.  Each token has a span of its own in the phrase,
the text of the span is a way to write the token, and between the spans there
are only blanks.  A phrase that cannot be cut has an open quote, at which the
error points.
-/

namespace SearchPhrase.Token

/-! ## Spans in order -/

namespace Spaced

variable {low high : Nat} {tokens : List Token}

theorem start_lt_stop (spaced : Spaced low high tokens) :
    ∀ token ∈ tokens, token.start < token.stop := by
  induction spaced with
  | nil _ => simp
  | cons _ nonempty _ ih => exact List.forall_mem_cons.mpr ⟨nonempty, ih⟩

theorem pairwise (spaced : Spaced low high tokens) :
    tokens.Pairwise fun left right =>
      left.start < right.start ∧ left.stop ≤ right.start := by
  induction spaced with
  | nil _ => exact .nil
  | cons _ nonempty others ih =>
      refine .cons (fun right member => ?_) ih
      have after := (others.start_mem right member).1
      omega

end Spaced

/-! ## Texts that are covered by tokens -/

/--
A text, from an offset on, that consists of blanks and of the texts of tokens.
The text of a token starts with a character that is not blank.
-/
inductive Covered : Nat → List Char → List Token → Prop where
  | nil {offset : Nat} : Covered offset [] []
  | blank {offset : Nat} {blank : Char} {rest : List Char} {tokens : List Token}
      (isBlank : Text.isBlank blank = true)
      (others : Covered (offset + blank.utf8Size) rest tokens) :
      Covered offset (blank :: rest) tokens
  | token {offset : Nat} {first : Char} {own rest : List Char} {kind : Kind}
      {tokens : List Token}
      (notBlank : Text.isBlank first = false)
      (spells : Spells (first :: own) kind)
      (others : Covered (offset + String.utf8Len (first :: own)) rest tokens) :
      Covered offset (first :: own ++ rest)
        (⟨kind, offset, offset + String.utf8Len (first :: own)⟩ :: tokens)

theorem covered_of_readTokens
    {offset : Nat} {text : List Char} {tokens : List Token}
    (cut : readTokens offset text = .ok tokens) :
    Covered offset text tokens := by
  fun_induction readTokens offset text generalizing tokens with
  | case1 =>
      cases cut
      exact .nil
  | case2 offset first rest blank ih => exact .blank blank (ih cut)
  | case3 => cases cut
  | case4 offset first rest notBlank lexeme read shorter ih =>
      have startsToken : Text.isBlank first = false := by simpa using notBlank
      obtain ⟨spells, whole⟩ := Lexeme.cutFrom_of_read startsToken read
      obtain ⟨kind, text, others⟩ := lexeme
      obtain ⟨character, own, rfl⟩ := List.exists_cons_of_ne_nil spells.ne_nil
      obtain ⟨rfl, rfl⟩ := List.cons.inj whole
      cases cutOthers :
          readTokens (offset + String.utf8Len (character :: own)) others with
      | error error =>
          rw [cutOthers] at cut
          cases cut
      | ok later =>
          rw [cutOthers] at cut
          cases cut
          exact .token startsToken spells (ih cutOthers)

namespace Covered

variable {offset : Nat} {text : List Char} {tokens : List Token}

/-- Each token is written by the text of its span. -/
theorem written (covered : Covered offset text tokens) :
    ∀ token ∈ tokens, ∃ before first own after,
      text = before ++ (first :: own) ++ after ∧
        token.start = offset + String.utf8Len before ∧
        token.stop = offset + String.utf8Len (before ++ first :: own) ∧
        Text.isBlank first = false ∧ Spells (first :: own) token.kind := by
  induction covered with
  | nil => simp
  | @blank offset blank rest tokens isBlank _ ih =>
      intro token member
      obtain ⟨before, first, own, after, rfl, starts, stops, notBlank,
        spells⟩ := ih token member
      refine ⟨blank :: before, first, own, after, rfl, ?_, ?_, notBlank, spells⟩
      · rw [starts, add_utf8Len_cons]
      · rw [stops, List.cons_append, add_utf8Len_cons]
  | @token offset first own rest kind tokens notBlank spells _ ih =>
      rw [List.forall_mem_cons]
      refine ⟨⟨[], first, own, rest, rfl, rfl, rfl, notBlank, spells⟩,
        fun token member => ?_⟩
      obtain ⟨before, next, others, after, rfl, starts, stops, startsToken,
        spellsToken⟩ := ih token member
      refine ⟨first :: own ++ before, next, others, after, by simp, ?_, ?_,
        startsToken, spellsToken⟩
      · rw [starts, String.utf8Len_append, Nat.add_assoc]
      · rw [stops, List.append_assoc, String.utf8Len_append (first :: own),
          Nat.add_assoc]

/--
A character outside of all spans is blank.  A character of the text of a token
lies in the span of the token.
-/
theorem isBlank_of_outside (covered : Covered offset text tokens)
    {before : List Char} {character : Char} {after : List Char}
    (place : text = before ++ character :: after)
    (outside : ∀ token ∈ tokens, offset + String.utf8Len before < token.start ∨
      token.stop ≤ offset + String.utf8Len before) :
    Text.isBlank character = true := by
  induction covered generalizing before with
  | nil => simp at place
  | @blank offset blank rest tokens isBlank _ ih =>
      cases before with
      | nil =>
          obtain ⟨rfl, -⟩ := List.cons.inj place
          exact isBlank
      | cons head before =>
          obtain ⟨rfl, rest⟩ := List.cons.inj place
          rw [add_utf8Len_cons] at outside
          exact ih rest outside
  | @token offset first own rest kind tokens notBlank spells _ ih =>
      obtain ⟨outsideHere, outsideLater⟩ := List.forall_mem_cons.mp outside
      rcases List.append_eq_append_iff.mp place with
        ⟨gap, rfl, later⟩ | ⟨inner, split, later⟩
      · rw [String.utf8Len_append, ← Nat.add_assoc] at outsideLater
        exact ih later outsideLater
      · cases inner with
        | nil =>
            have same : before = first :: own := by simpa using split.symm
            rw [same, ← Nat.add_zero (offset + _)] at outsideLater
            exact ih (show rest = [] ++ character :: after from later.symm)
              outsideLater
        | cons head inner =>
            have here : offset + String.utf8Len before < offset ∨
                offset + String.utf8Len (first :: own) ≤
                  offset + String.utf8Len before :=
              outsideHere
            rw [split, String.utf8Len_append, String.utf8Len_cons] at here
            have size := head.utf8Size_pos
            omega

end Covered

/-! ## Phrases -/

/--
Tokens account for a text: their spans are not empty and lie one after the
other, each span is the text of its token and starts with a character that is
not blank, and all characters outside of the spans are blank.
-/
structure AccountFor (text : List Char) (tokens : List Token) : Prop where
  nonempty : ∀ token ∈ tokens, token.start < token.stop
  ordered :
    tokens.Pairwise fun left right =>
      left.start < right.start ∧ left.stop ≤ right.start
  written : ∀ token ∈ tokens, ∃ before first own after,
    text = before ++ (first :: own) ++ after ∧
      token.start = String.utf8Len before ∧
      token.stop = String.utf8Len (before ++ first :: own) ∧
      Text.isBlank first = false ∧ Spells (first :: own) token.kind
  blankElsewhere :
    ∀ before character after, text = before ++ character :: after →
      (∀ token ∈ tokens, String.utf8Len before < token.start ∨
        token.stop ≤ String.utf8Len before) →
      Text.isBlank character = true

theorem cause_eq_openQuote_iff {cause : PhraseError.Cause} :
    cause.message = "unterminated string" ↔ cause = .openQuote := by
  cases cause <;> decide

theorem accountFor_of_ofPhrase
    {phrase : String} {tokens : List Token}
    (cut : ofPhrase phrase = .ok tokens) :
    AccountFor phrase.toList tokens := by
  have spaced := spaced_ofPhrase cut
  have covered : Covered 0 phrase.toList tokens := by
    apply covered_of_readTokens
    rw [readTokens_eq_scan, ← ofPhrase, cut]
    rfl
  refine ⟨spaced.start_lt_stop, spaced.pairwise, ?_, ?_⟩
  · simpa only [Nat.zero_add] using covered.written
  · intro before character after place outside
    refine covered.isBlank_of_outside place ?_
    simpa only [Nat.zero_add] using outside

/--
A phrase cannot be cut exactly if a quote that stands outside of quoted values
is never closed, and then the error points at this quote.  Reading ahead gives
the same tokens and errors, and so never meets an unexpected character.  The
tokens of a phrase that can be cut account for it.
-/
theorem ofPhrase_loses_nothing (phrase : String) :
    (∀ error, ofPhrase phrase = .error error ↔
      ∃ before, OpensAfter before phrase.toList ∧
        error.cause.message = "unterminated string" ∧
        error.position = String.utf8Len before) ∧
      readTokens 0 phrase.toList =
        (ofPhrase phrase).mapError (fun error => ⟨.openQuote, error.position⟩) ∧
      ∀ tokens, ofPhrase phrase = .ok tokens →
        AccountFor phrase.toList tokens := by
  refine ⟨fun error => ?_, readTokens_eq_scan 0 phrase.toList,
    fun _ => accountFor_of_ofPhrase⟩
  obtain ⟨cause, position⟩ := error
  simp only [ofPhrase_eq_error_iff, cause_eq_openQuote_iff,
    PhraseError.mk.injEq]

/--
A quote after a backslash closes nothing, and the other quotes of a phrase are
closed.
-/
theorem ofPhrase_loses_nothing_quotes :
    OpensAfter ['ä', '"', '\'', '"', ' '] "ä\"'\" 'b\\'".toList ∧
      ofPhrase "ä\"'\" 'b\\'" = .error ⟨.openQuote, 6⟩ ∧
      ofPhrase "ä>=\"'\" " =
        .ok [⟨.value "ä", 0, 2⟩, ⟨.comparison .greaterOrEqual, 2, 4⟩,
          ⟨.value "'", 4, 7⟩] ∧
      AccountFor "ä>=\"'\" ".toList
        [⟨.value "ä", 0, 2⟩, ⟨.comparison .greaterOrEqual, 2, 4⟩,
          ⟨.value "'", 4, 7⟩] := by
  have balanced : Balanced ['ä', '"', '\'', '"', ' '] :=
    .plain rfl
      (.quoted rfl (.plain (by decide) (by decide) .nil) (.plain rfl .nil))
  have opens : OpensAfter ['ä', '"', '\'', '"', ' '] "ä\"'\" 'b\\'".toList :=
    ⟨balanced, '\'', ['b', '\\', '\''], rfl,
      (closing?_eq_none_iff (by decide)).mp rfl, by decide⟩
  have cut : ofPhrase "ä>=\"'\" " =
      .ok [⟨.value "ä", 0, 2⟩, ⟨.comparison .greaterOrEqual, 2, 4⟩,
        ⟨.value "'", 4, 7⟩] := by
    decide
  refine ⟨opens, ?_, cut, (ofPhrase_loses_nothing "ä>=\"'\" ").2.2 _ cut⟩
  exact ((ofPhrase_loses_nothing "ä\"'\" 'b\\'").1 ⟨.openQuote, 6⟩).mpr
    ⟨_, opens, by decide, by decide⟩

end SearchPhrase.Token
