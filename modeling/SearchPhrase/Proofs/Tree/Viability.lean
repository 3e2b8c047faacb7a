import SearchPhrase.Proofs.Token.Spans
import SearchPhrase.Proofs.Tree.Grammar

/-!
# Errors at the first wrong token

A phrase that cannot be read is reported at an offset.  This module shows that
the offset is right: what stands before it is the start of some phrase of the
grammar, and with the token at it this is no longer so.  If there is no such
token, then the phrase ends too early, and the offset is its end.

The reader never needs to look ahead for this.  Whatever state it is in, a value
that is missing and a parenthesis for each enclosing level complete the phrase.
-/

namespace SearchPhrase.Tree

namespace Reader

/-! ## Completing a phrase -/

/--
What completes a phrase from a state: a value that must follow, and closing
parentheses.
-/
def State.completion (state : State) : List Token.Kind :=
  let closing := List.replicate state.enclosing.length .closing
  match state.expectation with
  | .operand | .value _ _ => .value "" :: closing
  | .comparison _ | .connective => closing

theorem exists_outcome_closing (level : Level) (enclosing : List Level) :
    ∃ tree, State.outcome ⟨level, enclosing, .connective⟩
      (List.replicate enclosing.length .closing) = .ok tree := by
  induction enclosing generalizing level with
  | nil => exact ⟨level.tree, rfl⟩
  | cons outer others ih => exact ih (outer.add level.tree)

/-- A value at the end is an operand before closing parentheses. -/
theorem exists_outcome_value (level : Level) (enclosing : List Level)
    (text : String) :
    ∃ tree, State.outcome ⟨level, enclosing, .comparison text⟩
      (List.replicate enclosing.length .closing) = .ok tree := by
  have apart : Derivation.startsComparison
      (List.replicate enclosing.length .closing) = false := by
    cases enclosing <;> rfl
  rw [outcome_comparison apart]
  exact exists_outcome_closing _ enclosing

/-- Every state can be completed. -/
theorem exists_outcome_completion (state : State) :
    ∃ tree, state.outcome state.completion = .ok tree := by
  obtain ⟨level, enclosing, expectation⟩ := state
  cases expectation with
  | operand => exact exists_outcome_value level enclosing ""
  | comparison left => exact exists_outcome_value level enclosing left
  | value left operator =>
      exact exists_outcome_closing (level.add (written left operator ""))
        enclosing
  | connective => exact exists_outcome_closing level enclosing

/-! ## Where a run stops -/

theorem State.outcome_append_of_run
    {state last : State} {tokens : List Token}
    (ran : state.run tokens = .ok last) (rest : List Token.Kind) :
    state.outcome (tokens.map Token.kind ++ rest) = last.outcome rest := by
  induction tokens generalizing state with
  | nil =>
      cases ran
      rfl
  | cons token others ih =>
      unfold run at ran
      split at ran
      · next next stepped =>
          rw [List.map_cons, List.cons_append, outcome, stepped]
          exact ih ran
      · cases ran

/-- A run fails at the start of the first token that its state refuses. -/
theorem State.run_eq_error
    {state : State} {tokens : List Token} {error : PhraseError}
    (failed : state.run tokens = .error error) :
    ∃ before token after middle, tokens = before ++ token :: after ∧
      state.run before = .ok middle ∧
      middle.step token.kind = .error error.cause ∧
      token.start = error.position := by
  induction tokens generalizing state with
  | nil => cases failed
  | cons token rest ih =>
      unfold run at failed
      split at failed
      · next next stepped =>
          obtain ⟨before, refused, after, middle, rfl, ran, refuses,
            position⟩ := ih failed
          refine ⟨token :: before, refused, after, middle, rfl, ?_, refuses,
            position⟩
          rw [run, stepped]
          exact ran
      · next cause stepped =>
          cases failed
          exact ⟨[], token, rest, state, rfl, rfl, stepped, rfl⟩

/-- Tokens are refused at one of them, or at the end. -/
theorem ofTokens_eq_error
    {endOffset : Nat} {tokens : List Token} {error : PhraseError}
    (failed : ofTokens endOffset tokens = .error error) :
    State.initial.run tokens = .error error ∨
      error.position = endOffset ∧
        ∃ last, State.initial.run tokens = .ok last := by
  unfold ofTokens at failed
  split at failed
  · cases failed
  · split at failed
    · next ran =>
        cases failed
        exact Or.inl ran
    · next last ran =>
        split at failed
        · cases failed
        · cases failed
          exact Or.inr ⟨rfl, last, ran⟩

end Reader

open Reader

/-! ## Starts of phrases -/

/-- Kinds of tokens are the start of a phrase of the grammar, or all of it. -/
def Viable (kinds : List Token.Kind) : Prop :=
  ∃ derivation : Derivation .disjunction, kinds <+: derivation.kinds

theorem Derivation.exists_outcome (derivation : Derivation .disjunction) :
    ∃ tree, State.initial.outcome derivation.kinds = .ok tree := by
  rw [← derivation.kinds_regroup]
  exact ⟨_, outcome_kinds derivation.greedyBefore_regroup⟩

/-- What the reader has read is the start of a phrase. -/
theorem viable_of_run
    {tokens : List Token} {last : State}
    (ran : State.initial.run tokens = .ok last) :
    Viable (tokens.map Token.kind) := by
  obtain ⟨tree, completed⟩ := exists_outcome_completion last
  rw [← State.outcome_append_of_run ran] at completed
  obtain ⟨derivation, read, -⟩ := Derivation.outcome_eq_ok_iff.mp completed
  exact ⟨derivation, last.completion, read.symm⟩

/--
What the reader has read is no longer the start of a phrase with a token that it
refuses.
-/
theorem not_viable_of_refused
    {before : List Token} {token : Token} {middle : State}
    {cause : PhraseError.Cause} (ran : State.initial.run before = .ok middle)
    (refused : middle.step token.kind = .error cause) :
    ¬ Viable ((before ++ [token]).map Token.kind) := by
  rintro ⟨derivation, rest, read⟩
  obtain ⟨tree, accepted⟩ := derivation.exists_outcome
  rw [← read, List.map_append, List.append_assoc,
    State.outcome_append_of_run ran, List.map_singleton, List.singleton_append,
    State.outcome, refused] at accepted
  cases accepted

/--
Phrases fail at the first wrong token.  The tokens that start before the offset
of the error are the start of a phrase of the grammar.  Either the offset is the
end of the phrase, and these are all tokens, or it is the start of a token with
which they are no longer the start of a phrase.
-/
theorem ofPhrase_fails_at_first_wrong_token
    {phrase : String} {tokens : List Token} {error : PhraseError}
    (cut : Token.ofPhrase phrase = .ok tokens)
    (failed : ofPhrase phrase = .error error) :
    Viable
      ((tokens.filter fun token => token.start < error.position).map
        Token.kind) ∧
      ((error.position = phrase.utf8ByteSize ∧
          ∀ token ∈ tokens, token.start < error.position) ∨
        ∃ before token after, tokens = before ++ token :: after ∧
          token.start = error.position ∧
          ¬ Viable ((before ++ [token]).map Token.kind)) := by
  have spaced := Token.spaced_ofPhrase cut
  rw [ofPhrase, cut] at failed
  rcases ofTokens_eq_error failed with stopped | ⟨position, last, ran⟩
  · obtain ⟨before, token, after, middle, rfl, ran, refused, position⟩ :=
      State.run_eq_error stopped
    refine ⟨?_,
      Or.inr ⟨before, token, after, rfl, position,
        not_viable_of_refused ran refused⟩⟩
    rw [← position, spaced.filter_start_lt]
    exact viable_of_run ran
  · have early : ∀ token ∈ tokens, token.start < error.position := by
      intro token member
      rw [position]
      exact (spaced.start_mem token member).2
    refine ⟨?_, Or.inl ⟨position, early⟩⟩
    rw [List.filter_eq_self.mpr (by simpa using early)]
    exact viable_of_run ran

/--
A parenthesis in place of a value is wrong, and what stands before it is not.
-/
theorem ofPhrase_fails_at_first_wrong_token_bracket :
    ∃ tokens, Token.ofPhrase "not (é = ) b" = .ok tokens ∧
      ofPhrase "not (é = ) b" = .error ⟨.missingValue, 10⟩ ∧
      Viable [.connective .not, .opening, .value "é", .comparison .equal] ∧
      ∃ before token after,
        tokens = before ++ token :: after ∧ token.start = 10 ∧
          ¬ Viable ((before ++ [token]).map Token.kind) := by
  have failed : ofPhrase "not (é = ) b" = .error ⟨.missingValue, 10⟩ := rfl
  have cut : ∃ tokens, Token.ofPhrase "not (é = ) b" = .ok tokens ∧
      (tokens.filter fun token => token.start < 10).map Token.kind =
        [.connective .not, .opening, .value "é", .comparison .equal] :=
    ⟨_, rfl, rfl⟩
  obtain ⟨tokens, cut, earlier⟩ := cut
  obtain ⟨viable, ends | wrong⟩ :=
    ofPhrase_fails_at_first_wrong_token cut failed
  · exact absurd ends.1 (by decide)
  · exact ⟨tokens, cut, failed, by rwa [earlier] at viable, wrong⟩

end SearchPhrase.Tree
