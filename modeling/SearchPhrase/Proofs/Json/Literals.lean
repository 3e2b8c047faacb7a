import Mathlib.Data.List.TakeWhile
import Mathlib.Tactic.NormNum
import SearchPhrase.Json.Printer
import SearchPhrase.Json.Reader

/-!
# Literals of JSON texts

The literals that are written for a text and for an integer are read back as one
lexeme each.  A character of a text is written as itself, behind a backslash, or
by its sixteen-bit units in hexadecimal digits, where characters beyond the
first plane take two units.  The scanner keeps the pieces of a literal and puts
the text together at the closing quote.
-/

namespace SearchPhrase.Json.Lexeme

/-! ## The scanner -/

section Scanner

variable {progress next : Progress} {character : Char}

theorem scan_cons_of_step
    {lexemes : List Lexeme}
    (stepped : progress.step character = some (lexemes, next))
    (rest : List Char) :
    scan progress (character :: rest) =
      (scan next rest).map (lexemes ++ ·) := by
  rw [scan, stepped]

/-- A character that completes no lexeme is only remembered. -/
theorem scan_cons_of_continuing
    (stepped : progress.step character = some ([], next)) (rest : List Char) :
    scan progress (character :: rest) = scan next rest := by
  rw [scan_cons_of_step stepped]
  exact Option.map_id'

end Scanner

/-! ## Pieces of a text -/

/-- The pieces by which a character is written in a string literal. -/
def piecesOf (character : Char) : List Piece :=
  if character == '"' || character == '\\' then [.character character]
  else if 0x20 ≤ character.toNat && character.toNat ≤ 0x7E then
    [.character character]
  else if character.toNat < 0x10000 then [.unit character.toNat]
  else
    [.unit (0xD800 + (character.toNat - 0x10000) / 0x400),
      .unit (0xDC00 + (character.toNat - 0x10000) % 0x400)]

/-- A unit outside of the surrogates is a character of its own. -/
theorem textOf?_unit
    {code : Nat} (plain : code < 0xD800 ∨ 0xE000 ≤ code) (rest : List Piece) :
    textOf? (.unit code :: rest) =
      (textOf? rest).map (Char.ofNat code :: ·) := by
  have notSurrogate : ¬(0xD800 ≤ code ∧ code < 0xE000) := by omega
  have notHigh : ¬(0xD800 ≤ code ∧ code < 0xDC00) := by omega
  have notLow : ¬(0xDC00 ≤ code ∧ code < 0xE000) := by omega
  cases rest with
  | nil => simp [textOf?, notSurrogate]
  | cons piece rest =>
      cases piece with
      | character other =>
          simp [textOf?, notSurrogate, Function.comp_def]
      | unit other => simp [textOf?, notHigh, notLow]

theorem textOf?_pair
    {high low : Nat} (highBounds : 0xD800 ≤ high ∧ high < 0xDC00)
    (lowBounds : 0xDC00 ≤ low ∧ low < 0xE000) (rest : List Piece) :
    textOf? (.unit high :: .unit low :: rest) =
      (textOf? rest).map
        (Char.ofNat (0x10000 + (high - 0xD800) * 0x400 + (low - 0xDC00)) ::
          ·) := by
  simp [textOf?, highBounds, lowBounds]

theorem textOf?_piecesOf (character : Char) (rest : List Piece) :
    textOf? (piecesOf character ++ rest) =
      (textOf? rest).map (character :: ·) := by
  have valid :
      character.toNat < 0xD800 ∨
        0xDFFF < character.toNat ∧ character.toNat < 0x110000 :=
    character.valid
  unfold piecesOf
  split
  · rfl
  · split
    · rfl
    · split
      · rw [List.singleton_append, textOf?_unit (by omega), Char.ofNat_toNat]
      · next large =>
          have code :
              0x10000 +
                  (0xD800 + (character.toNat - 0x10000) / 0x400 - 0xD800) *
                    0x400 +
                  (0xDC00 + (character.toNat - 0x10000) % 0x400 - 0xDC00) =
                character.toNat := by
            omega
          rw [List.cons_append, List.singleton_append,
            textOf?_pair (by omega) (by omega), code, Char.ofNat_toNat]

/-! ## Units in hexadecimal digits -/

/--
The number that hexadecimal digits write behind the digits of another one.
-/
def hexNumber? (code : Nat) (digits : List Char) : Option Nat :=
  digits.foldlM
    (fun number digit => (hexValue? digit).map (16 * number + ·)) code

theorem hexValue?_digitChar {digit : Nat} (bound : digit < 16) :
    hexValue? digit.digitChar = some digit := by
  have all : ∀ digit < 16, hexValue? (Nat.digitChar digit) = some digit := by
    decide
  exact all digit bound

theorem hexNumber?_cons (code : Nat) (digit : Char) (digits : List Char) :
    hexNumber? code (digit :: digits) =
      (hexValue? digit).bind fun value =>
        hexNumber? (16 * code + value) digits := by
  rw [hexNumber?, List.foldlM_cons]
  cases hexValue? digit <;> rfl

theorem hexNumber?_toDigits (number : Nat) :
    hexNumber? 0 (Nat.toDigits 16 number) = some number := by
  induction number using Nat.strong_induction_on with
  | _ number ih =>
      rw [Nat.toDigits_eq_if (by decide)]
      split
      · next small =>
          simp [hexNumber?, hexValue?_digitChar small]
      · next large =>
          have before := ih (number / 16) (by omega)
          rw [hexNumber?] at before ⊢
          rw [List.foldlM_append, before]
          simp [hexValue?_digitChar (Nat.mod_lt number (by decide : 0 < 16))]
          omega

theorem hexNumber?_unitDigits (unit : Nat) :
    hexNumber? 0 (unitDigits unit) = some unit := by
  have zeros (count : Nat) (digits : List Char) :
      hexNumber? 0 (List.replicate count '0' ++ digits) =
        hexNumber? 0 digits := by
    induction count with
    | zero => rfl
    | succ count ih =>
        rw [List.replicate_succ, List.cons_append, hexNumber?_cons]
        exact ih
  rw [unitDigits, List.leftpad, zeros, hexNumber?_toDigits]

theorem length_unitDigits {unit : Nat} (bound : unit < 0x10000) :
    (unitDigits unit).length = 4 := by
  have atMost : (Nat.toDigits 16 unit).length ≤ 4 :=
    (Nat.length_toDigits_le_iff (by decide) (by decide)).mpr bound
  rw [unitDigits, List.length_leftpad]
  omega

/-- The four digits of a unit are read one after the other. -/
theorem scan_hexDigits
    {latest : List Piece} {digits : List Char} {count code unit : Nat}
    (nonempty : digits ≠ [])
    (length : count + digits.length = 4)
    (number : hexNumber? code digits = some unit) (rest : List Char) :
    scan (.string latest (.unit count code)) (digits ++ rest) =
      scan (.string (.unit unit :: latest) .none) rest := by
  induction digits generalizing count code with
  | nil => exact absurd rfl nonempty
  | cons digit digits ih =>
      rw [hexNumber?_cons] at number
      obtain ⟨value, digitValue, later⟩ := Option.bind_eq_some_iff.mp number
      rw [List.length_cons] at length
      cases digits with
      | nil =>
          obtain rfl : count = 3 := by simpa using length
          obtain rfl : 16 * code + value = unit := Option.some.inj later
          exact scan_cons_of_continuing (by
            rw [Progress.step, Progress.stepString, digitValue]; rfl) rest
      | cons next digits =>
          have notLast : count ≠ 3 := by
            rw [List.length_cons] at length
            omega
          have stepped :
              (Progress.string latest (.unit count code)).step digit =
                some ([],
                  .string latest (.unit (count + 1) (16 * code + value))) := by
            simp [Progress.step, Progress.stepString, digitValue, notLast]
          rw [List.cons_append, scan_cons_of_continuing stepped]
          exact ih (by simp) (by omega) later

theorem scan_escapeUnit
    {latest : List Piece} {unit : Nat} (bound : unit < 0x10000)
    (rest : List Char) :
    scan (.string latest .none) (escapeUnit unit ++ rest) =
      scan (.string (.unit unit :: latest) .none) rest := by
  have length := length_unitDigits bound
  have nonempty : unitDigits unit ≠ [] := List.ne_nil_of_length_pos (by omega)
  rw [escapeUnit, List.cons_append, List.cons_append,
    scan_cons_of_continuing rfl, scan_cons_of_continuing rfl]
  exact scan_hexDigits nonempty (by omega) (hexNumber?_unitDigits unit) rest

/-! ## String literals -/

theorem step_string_of_plain
    {character : Char}
    (ordinary : (character == '"' || character == '\\') = false)
    (printable : 0x20 ≤ character.toNat) (latest : List Piece) :
    (Progress.string latest .none).step character =
      some ([], .string (.character character :: latest) .none) := by
  simp only [Bool.or_eq_false_iff] at ordinary
  simp [Progress.step, Progress.stepString, ordinary, Nat.not_lt.mpr printable]

/--
A character is read as the pieces by which it is written.  Both halves of a
surrogate pair are units, since no character has a greater code.
-/
theorem scan_escapeChar (latest : List Piece) (character : Char)
    (rest : List Char) :
    scan (.string latest .none) (escapeChar character ++ rest) =
      scan (.string ((piecesOf character).reverse ++ latest) .none) rest := by
  cases special : character == '"' || character == '\\' with
  | true =>
      rw [escapeChar, piecesOf, if_pos special, if_pos special]
      have either : character = '"' ∨ character = '\\' := by simpa using special
      rcases either with rfl | rfl <;>
        exact (scan_cons_of_continuing rfl _).trans
          (scan_cons_of_continuing rfl rest)
  | false =>
      have ordinary : ¬(character == '"' || character == '\\') = true := by
        simp [special]
      rw [escapeChar, piecesOf, if_neg ordinary, if_neg ordinary]
      by_cases printable :
          (0x20 ≤ character.toNat && character.toNat ≤ 0x7E) = true
      · rw [if_pos printable, if_pos printable]
        rw [Bool.and_eq_true, decide_eq_true_eq, decide_eq_true_eq] at printable
        exact scan_cons_of_continuing
          (step_string_of_plain special printable.1 latest) rest
      · rw [if_neg printable, if_neg printable]
        have valid : character.toNat < 0xD800 ∨
            0xDFFF < character.toNat ∧ character.toNat < 0x110000 :=
          character.valid
        by_cases small : character.toNat < 0x10000
        · rw [if_pos small, if_pos small]
          exact scan_escapeUnit small rest
        · rw [if_neg small, if_neg small, List.append_assoc,
            scan_escapeUnit (by omega), scan_escapeUnit (by omega)]
          rfl

theorem scan_escapedText (latest : List Piece) (text rest : List Char) :
    scan (.string latest .none) (text.flatMap escapeChar ++ rest) =
      scan (.string ((text.flatMap piecesOf).reverse ++ latest) .none)
        rest := by
  induction text generalizing latest with
  | nil => rfl
  | cons character text ih =>
      rw [List.flatMap_cons, List.append_assoc, scan_escapeChar, ih,
        List.flatMap_cons, List.reverse_append, List.append_assoc]

theorem textOf?_flatMap_piecesOf (text : List Char) :
    textOf? (text.flatMap piecesOf) = some text := by
  induction text with
  | nil => rfl
  | cons character text ih =>
      rw [List.flatMap_cons, textOf?_piecesOf, ih, Option.map_some]

/-- The literal of a text is read back as the text. -/
theorem scan_quoted (content : String) (rest : List Char) :
    scan .idle (quoted content ++ rest) =
      (scan .idle rest).map ([.text (some content)] ++ ·) := by
  have closed (latest : List Piece)
      (read : textOf? latest.reverse = some content.toList) :
      (Progress.string latest .none).step '"' =
        some ([.text (some content)], .idle) := by
    simp [Progress.step, Progress.stepString, read]
  rw [quoted, List.append_assoc, List.cons_append, scan_cons_of_continuing rfl,
    scan_escapedText, List.singleton_append, scan_cons_of_step (closed _ ?_)]
  rw [List.append_nil, List.reverse_reverse]
  exact textOf?_flatMap_piecesOf content.toList

/-- The literal of an absent text is read back as well. -/
theorem scan_textLiteral (content : Option String) (rest : List Char) :
    scan .idle (textLiteral content ++ rest) =
      (scan .idle rest).map ([.text content] ++ ·) := by
  cases content with
  | some content => exact scan_quoted content rest
  | none =>
      rw [textLiteral, List.append_assoc, List.cons_append,
        scan_cons_of_continuing rfl, scan_escapeUnit (by decide),
        List.singleton_append, scan_cons_of_step rfl]
      rfl

/-! ## Scalars -/

/-- Whether a character ends a scalar. -/
def endsScalar (character : Char) : Bool :=
  isSpace character || isMark character || character == '"'

/--
A text before which a scalar ends: it is empty or starts with a character that
ends one.
-/
def Ends (text : List Char) : Prop :=
  ∀ character ∈ text.head?, endsScalar character = true

/--
The characters of a scalar are collected up to the character that ends it, which
is read as if nothing had been collected.
-/
theorem scan_collected
    {latest text : List Char} {value : Json}
    (collected : ∀ character ∈ text, endsScalar character = false)
    (read : scalar? (latest.reverse ++ text) = some value) {rest : List Char}
    (ends : Ends rest) :
    scan (.collected latest) (text ++ rest) =
      (scan .idle rest).map ([.scalar value] ++ ·) := by
  induction text generalizing latest with
  | nil =>
      rw [List.append_nil] at read
      cases rest with
      | nil => simp [scan, Progress.finish, read]
      | cons character rest =>
          have stepped : (Progress.collected latest).step character =
              some ([.scalar value] ++ (Progress.begin character).1,
                (Progress.begin character).2) := by
            have ended := ends character rfl
            rw [endsScalar] at ended
            rw [Progress.step, if_pos ended, read]
            rfl
          rw [List.nil_append, scan_cons_of_step stepped, scan_cons_of_step rfl,
            Option.map_map]
          rfl
  | cons character text ih =>
      obtain ⟨goesOn, others⟩ := List.forall_mem_cons.mp collected
      have stepped : (Progress.collected latest).step character =
          some ([], .collected (character :: latest)) := by
        rw [Progress.step, if_neg (by simpa [endsScalar] using goesOn)]
      rw [List.cons_append, scan_cons_of_continuing stepped]
      exact ih others (by simpa using read)

/-- A scalar that is written without a character that ends one is read back. -/
theorem scan_scalar
    {text : List Char} {value : Json} (nonempty : text ≠ [])
    (collected : ∀ character ∈ text, endsScalar character = false)
    (read : scalar? text = some value) {rest : List Char} (ends : Ends rest) :
    scan .idle (text ++ rest) =
      (scan .idle rest).map ([.scalar value] ++ ·) := by
  obtain ⟨character, others, rfl⟩ := List.exists_cons_of_ne_nil nonempty
  obtain ⟨goesOn, othersCollected⟩ := List.forall_mem_cons.mp collected
  have stepped :
      Progress.idle.step character = some ([], .collected [character]) := by
    simp only [endsScalar, Bool.or_eq_false_iff] at goesOn
    simp [Progress.step, Progress.begin, goesOn]
  have reread : scalar? ([character].reverse ++ others) = some value := read
  rw [List.cons_append, scan_cons_of_continuing stepped]
  exact scan_collected othersCollected reread ends

/-! ## Integers -/

theorem head?_toDigits {number : Nat} (positive : 0 < number) :
    (Nat.toDigits 10 number).head? ≠ some '0' := by
  induction number using Nat.strong_induction_on with
  | _ number ih =>
      rw [Nat.toDigits_eq_if (by decide)]
      split
      · next small =>
          have all : ∀ digit < 10, 0 < digit → Nat.digitChar digit ≠ '0' := by
            decide
          simpa using all number small positive
      · next large =>
          have before := ih (number / 10) (by omega) (by omega)
          obtain ⟨first, others, digits⟩ :=
            List.exists_cons_of_ne_nil
              (Nat.toDigits_ne_nil (n := number / 10) (b := 10))
          rw [digits] at before ⊢
          exact before

theorem isWholePart_toDigits (number : Nat) :
    isWholePart (Nat.toDigits 10 number) = true := by
  rcases Nat.eq_zero_or_pos number with rfl | positive
  · rfl
  · have notZero := head?_toDigits positive
    obtain ⟨first, others, digits⟩ :=
      List.exists_cons_of_ne_nil (Nat.toDigits_ne_nil (n := number) (b := 10))
    rw [digits] at notZero ⊢
    cases others with
    | nil => rfl
    | cons second others => simpa [isWholePart] using notZero

theorem unsigned?_toDigits
    (negative : Bool) (number : Nat) (signed : negative = true → 0 < number) :
    unsigned? negative (Nat.toDigits 10 number) =
      some (.integer (if negative then -number else number)) := by
  have digits : ∀ digit ∈ Nat.toDigits 10 number, digit.isDigit = true :=
    fun _ digit => Nat.isDigit_of_mem_toDigits (by decide) (by decide) digit
  have whole :
      (Nat.toDigits 10 number).takeWhile Char.isDigit =
        Nat.toDigits 10 number :=
    List.takeWhile_eq_self_iff.mpr digits
  have rest : (Nat.toDigits 10 number).dropWhile Char.isDigit = [] :=
    List.dropWhile_eq_nil_iff.mpr digits
  have notNegativeZero : (negative && number == 0) = false := by
    cases negative with
    | false => rfl
    | true => simpa using (signed rfl).ne'
  simp [unsigned?, whole, rest, isWholePart_toDigits, isFractionalPart,
    isExponentPart, Nat.ofDigitChars_ten_toDigits, notNegativeZero]

theorem scalar?_minus (rest : List Char) :
    scalar? ('-' :: rest) = unsigned? true rest := by
  simp [scalar?]

theorem scalar?_of_isDigit {first : Char} (digit : first.isDigit = true)
    (rest : List Char) :
    scalar? (first :: rest) = unsigned? false (first :: rest) := by
  have differs (other : Char) (notDigit : other.isDigit = false) :
      first ≠ other := by
    rintro rfl
    simp [digit] at notDigit
  simp only [scalar?]
  rw [if_neg (by simp [differs 'n' rfl]), if_neg (by simp [differs 't' rfl]),
    if_neg (by simp [differs 'f' rfl])]
  split
  · next same => exact absurd (List.cons.inj same).1 (differs '-' rfl)
  · rfl

/-- An integer is written by the scalar that stands for it. -/
theorem scalar?_ofInt (value : Int) :
    scalar? (Text.ofInt value) = some (.integer value) := by
  rw [Text.ofInt]
  split
  · next negative =>
      have magnitude : (-(value.natAbs : Int)) = value := by omega
      rw [scalar?_minus, unsigned?_toDigits true _ (fun _ => by omega),
        if_pos rfl, magnitude]
  · next nonnegative =>
      have magnitude : (value.natAbs : Int) = value := by omega
      have read := unsigned?_toDigits false value.natAbs nofun
      obtain ⟨first, others, digits⟩ :=
        List.exists_cons_of_ne_nil
          (Nat.toDigits_ne_nil (n := value.natAbs) (b := 10))
      have digit : first.isDigit = true :=
        Nat.isDigit_of_mem_toDigits (by decide) (by decide)
          (digits ▸ List.mem_cons_self : first ∈ Nat.toDigits 10 value.natAbs)
      rw [digits] at read ⊢
      rw [scalar?_of_isDigit digit, read, if_neg nofun, magnitude]

theorem minus_or_isDigit_of_mem_ofInt
    {value : Int} {character : Char} (written : character ∈ Text.ofInt value) :
    character = '-' ∨ character.isDigit = true := by
  rw [Text.ofInt] at written
  split at written
  · rcases List.mem_cons.mp written with minus | digit
    · exact .inl minus
    · exact .inr (Nat.isDigit_of_mem_toDigits (by decide) (by decide) digit)
  · exact .inr (Nat.isDigit_of_mem_toDigits (by decide) (by decide) written)

theorem endsScalar_of_mem_ofInt
    {value : Int} {character : Char} (written : character ∈ Text.ofInt value) :
    endsScalar character = false := by
  have others :
      ([' ', '\t', '\n', '\r', '[', ']', '\x7b', '\x7d', ',', ':', '"'].all
        fun other =>
      !(other == '-' || other.isDigit)) = true := by
    decide
  have written : (character == '-' || character.isDigit) = true := by
    simpa using minus_or_isDigit_of_mem_ofInt written
  refine Bool.eq_false_iff.mpr fun ends => ?_
  have excluded := List.all_eq_true.mp others character
    (by simpa [endsScalar, isSpace, isMark, or_assoc] using ends)
  rw [written] at excluded
  exact Bool.noConfusion excluded

theorem scan_ofInt (value : Int) {rest : List Char} (ends : Ends rest) :
    scan .idle (Text.ofInt value ++ rest) =
      (scan .idle rest).map ([.scalar (.integer value)] ++ ·) := by
  have nonempty : Text.ofInt value ≠ [] := by
    rw [Text.ofInt]
    split
    · exact List.cons_ne_nil _ _
    · exact Nat.toDigits_ne_nil
  exact scan_scalar nonempty (fun _ written => endsScalar_of_mem_ofInt written)
    (scalar?_ofInt value) ends

end SearchPhrase.Json.Lexeme
