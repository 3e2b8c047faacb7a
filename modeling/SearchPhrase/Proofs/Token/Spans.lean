import Mathlib.Data.String.Basic
import SearchPhrase.Token

/-!
# Spans of tokens

Each token is cut from a span of bytes of the phrase.  The spans are not empty,
they lie one after the other, and they end by the end of the phrase.  The
scanner keeps this up character by character: what it has not yet cut off starts
where the last token ended or later.
-/

namespace SearchPhrase.Token

/--
Tokens whose spans are not empty and lie one after the other, from one offset on
and up to another one.
-/
inductive Spaced : Nat → Nat → List Token → Prop where
  | nil {low high : Nat} (ordered : low ≤ high) : Spaced low high []
  | cons {low high : Nat} {token : Token} {rest : List Token}
      (after : low ≤ token.start) (nonempty : token.start < token.stop)
      (others : Spaced token.stop high rest) : Spaced low high (token :: rest)

namespace Spaced

variable {low middle high : Nat} {tokens first second : List Token}

theorem le (spaced : Spaced low high tokens) : low ≤ high := by
  induction spaced with
  | nil ordered => exact ordered
  | cons after nonempty _ ih => omega

theorem append (left : Spaced low middle first)
    (right : Spaced middle high second) :
    Spaced low high (first ++ second) := by
  induction left with
  | nil ordered =>
      cases right with
      | nil rightOrdered => exact .nil (Nat.le_trans ordered rightOrdered)
      | cons after nonempty others =>
          exact .cons (Nat.le_trans ordered after) nonempty others
  | cons after nonempty _ ih => exact .cons after nonempty (ih right)

theorem start_mem (spaced : Spaced low high tokens) :
    ∀ token ∈ tokens, low ≤ token.start ∧ token.start < high := by
  induction spaced with
  | nil _ => simp
  | cons after nonempty others ih =>
      have ends := others.le
      rw [List.forall_mem_cons]
      refine ⟨⟨after, by omega⟩, fun token member => ?_⟩
      have bounds := ih token member
      omega

/-- The tokens that start before one of them are those that stand before it. -/
theorem filter_start_lt
    {before after : List Token} {token : Token}
    (spaced : Spaced low high (before ++ token :: after)) :
    (before ++ token :: after).filter (fun other => other.start < token.start) =
      before := by
  induction before generalizing low with
  | nil =>
      cases spaced with
      | cons _ nonempty others =>
          simp only [List.nil_append, Nat.lt_irrefl, decide_false,
            Bool.false_eq_true, not_false_eq_true, List.filter_cons_of_neg,
            List.filter_eq_nil_iff, decide_eq_true_eq]
          intro other member
          have bounds := others.start_mem other member
          omega
  | cons first rest ih =>
      cases spaced with
      | cons _ nonempty others =>
          have later := (others.start_mem token (by simp)).1
          rw [List.cons_append,
            List.filter_cons_of_pos (by simpa using by omega), ih others]

end Spaced

/-! ## The scanner -/

namespace Progress

/--
Where the token in progress starts, or else the earliest start of the next
token.
-/
def origin (offset : Nat) : Progress → Nat
  | .idle => offset
  | .word start _ => start
  | .symbol start _ => start
  | .quoted start _ _ _ => start

/-- A token in progress has at least one byte before the offset. -/
def Started (offset : Nat) (progress : Progress) : Prop :=
  progress = .idle ∨ progress.origin offset < offset

/--
What reading a character does to spans: the tokens that it completes lie between
the origin before it and the origin after it.
-/
def Advances (low offset : Nat) (result : List Token × Progress) : Prop :=
  Spaced low (result.2.origin offset) result.1 ∧ result.2.Started offset

/-- A token that is still in progress completes nothing. -/
theorem advances_in_progress
    {low offset : Nat} {progress : Progress}
    (starts : progress.origin offset = low)
    (started : low < offset) : Advances low offset ([], progress) :=
  ⟨.nil (Nat.le_of_eq starts.symm), Or.inr (starts.trans_lt started)⟩

/-- A token that ends at the offset leaves nothing in progress. -/
theorem advances_to_idle
    {low offset : Nat} {token : Token} (starts : token.start = low)
    (stops : token.stop = offset)
    (nonempty : low < offset) : Advances low offset ([token], .idle) :=
  ⟨.cons (Nat.le_of_eq starts.symm) (by omega) (.nil (Nat.le_of_eq stops)),
    Or.inl rfl⟩

/--
A token that ends before a character is followed by what the character does on
its own.
-/
theorem Advances.cons
    {low middle offset : Nat} {token : Token} {result : List Token × Progress}
    (starts : token.start = low) (stops : token.stop = middle)
    (nonempty : low < middle) (advances : Advances middle offset result) :
    Advances low offset (token :: result.1, result.2) := by
  subst starts stops
  exact ⟨.cons (Nat.le_refl _) nonempty advances.1, advances.2⟩

theorem advances_begin (offset : Nat) (character : Char) :
    Advances offset (offset + character.utf8Size)
      (Progress.begin offset character) := by
  have grows : offset < offset + character.utf8Size :=
    Nat.lt_add_of_pos_right character.utf8Size_pos
  unfold Progress.begin
  split
  · exact ⟨.nil (Nat.le_of_lt grows), Or.inl rfl⟩
  · split
    · exact advances_to_idle rfl rfl grows
    · split
      · exact advances_to_idle rfl rfl grows
      · split
        · exact advances_in_progress rfl grows
        · split
          · exact advances_in_progress rfl grows
          · exact advances_in_progress rfl grows

/-- One step of the scanner keeps spans one after the other. -/
theorem advances_step
    {progress : Progress} {offset : Nat} (started : progress.Started offset)
    (character : Char) :
    Advances (progress.origin offset) (offset + character.utf8Size)
      (progress.step offset character) := by
  have grows : offset < offset + character.utf8Size :=
    Nat.lt_add_of_pos_right character.utf8Size_pos
  cases progress with
  | idle => exact advances_begin offset character
  | word start latest =>
      have before : start < offset := started.resolve_left nofun
      rw [Progress.step]
      split
      · exact Advances.cons rfl rfl before (advances_begin offset character)
      · exact advances_in_progress rfl (before.trans grows)
  | symbol start first =>
      have before : start < offset := started.resolve_left nofun
      rw [Progress.step]
      split
      · exact advances_to_idle rfl rfl (before.trans grows)
      · exact Advances.cons rfl rfl before (advances_begin offset character)
  | quoted start quote latest escaped =>
      have before : start < offset := started.resolve_left nofun
      rw [Progress.step]
      split
      · exact advances_in_progress rfl (before.trans grows)
      · split
        · exact advances_in_progress rfl (before.trans grows)
        · split
          · exact advances_to_idle rfl rfl (before.trans grows)
          · exact advances_in_progress rfl (before.trans grows)

theorem spaced_finish
    {progress : Progress} {offset : Nat} {tokens : List Token}
    (started : progress.Started offset)
    (finished : progress.finish offset = .ok tokens) :
    Spaced (progress.origin offset) offset tokens := by
  cases progress with
  | idle =>
      cases finished
      exact .nil (Nat.le_refl offset)
  | word start latest =>
      cases finished
      have before : start < offset := started.resolve_left nofun
      exact .cons (Nat.le_refl _) before (.nil (Nat.le_refl _))
  | symbol start first =>
      cases finished
      have before : start < offset := started.resolve_left nofun
      exact .cons (Nat.le_refl _) before (.nil (Nat.le_refl _))
  | quoted start quote latest escaped => cases finished

end Progress

theorem scan_cons_eq_ok
    {progress : Progress} {offset : Nat} {character : Char} {rest : List Char}
    {tokens : List Token}
    (scanned : scan progress offset (character :: rest) = .ok tokens) :
    ∃ later,
      scan (progress.step offset character).2 (offset + character.utf8Size)
          rest = .ok later ∧
        tokens = (progress.step offset character).1 ++ later := by
  simp only [scan] at scanned
  split at scanned
  · next later scannedRest =>
      cases scanned
      exact ⟨later, scannedRest, rfl⟩
  · cases scanned

/--
The scanner leaves spans one after the other, from its origin to the end of the
text.
-/
theorem spaced_scan
    {progress : Progress} {offset : Nat} {text : List Char}
    {tokens : List Token}
    (started : progress.Started offset)
    (scanned : scan progress offset text = .ok tokens) :
    Spaced (progress.origin offset) (offset + String.utf8Len text) tokens := by
  induction text generalizing progress offset tokens with
  | nil => exact Progress.spaced_finish started scanned
  | cons character rest ih =>
      obtain ⟨spaced, startedNext⟩ := Progress.advances_step started character
      obtain ⟨later, scannedRest, rfl⟩ := scan_cons_eq_ok scanned
      have spacedRest := ih startedNext scannedRest
      rw [Nat.add_assoc, Nat.add_comm character.utf8Size] at spacedRest
      exact spaced.append spacedRest

/--
The spans of the tokens of a phrase lie one after the other in the phrase.
-/
theorem spaced_ofPhrase
    {phrase : String} {tokens : List Token}
    (cut : ofPhrase phrase = .ok tokens) :
    Spaced 0 phrase.utf8ByteSize tokens := by
  have spaced := spaced_scan (Or.inl rfl) cut
  rwa [String.utf8Len_toList, Nat.zero_add] at spaced

end SearchPhrase.Token
