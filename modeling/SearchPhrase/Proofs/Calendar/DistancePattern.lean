import SearchPhrase.Proofs.Calendar.Ambiguity
import SearchPhrase.Proofs.Calendar.Rereading
import SearchPhrase.Proofs.Text.Pattern

/-!
# The pattern of distances

A distance is written as a number, a unit in the singular or plural, and one or
two words for the direction, with blanks between them.  The number may have
decimal digits of any script, and the words are in any case.  The main statement
is that a text writes a distance exactly if it matches this pattern, apart from
blanks at its ends.
-/

namespace SearchPhrase

open Text (IsWord IsTrimmed)
open Text.Pattern
open scoped Computability

/-! ## Patterns -/

/-- The names of a unit: the singular, and the plural with an s. -/
def TimeUnit.pattern (unit : TimeUnit) : Language Char :=
  keyword unit.name * optional (keyword "s")

/-- The words of a direction. -/
def TimeDirection.pattern : TimeDirection → Language Char
  | .ago => keyword "ago"
  | .fromNow => keyword "from" * repeated blank * keyword "now"

namespace WrittenDistance

/-- Distances in a unit and a direction whose amount matches a pattern. -/
def pattern (amount : Language Char) (unit : TimeUnit)
    (direction : TimeDirection) :
    Language Char :=
  amount * repeated blank * unit.pattern * repeated blank * direction.pattern

/-- Distances in a unit and a direction, of any amount. -/
def relative (unit : TimeUnit) (direction : TimeDirection) : Language Char :=
  pattern (repeated decimalDigit) unit direction

/-- Distances in minutes to the past, with blanks around them. -/
def minutesAgo : Language Char :=
  blank∗ * repeated decimalDigit * repeated blank * keyword "minute" *
    optional (keyword "s") * repeated blank * keyword "ago" * blank∗

end WrittenDistance

/-! ## Blanks in patterns -/

namespace Text

/-- The digits of all scripts lie apart from the blanks. -/
theorem zeroDigits_apart_from_blanks :
    ∀ first ∈ zeroDigits, 0x20 < first ∧ (first + 9 < 0x85 ∨ 0xA0 < first) ∧
      (first + 9 < 0x1680 ∨ 0x1680 < first) ∧
      (first + 9 < 0x2000 ∨ 0x205F < first) ∧
      (first + 9 < 0x3000 ∨ 0x3000 < first) := by
  decide

theorem isBlank_of_isDecimalDigit {character : Char}
    (digit : isDecimalDigit character = true) :
    isBlank character = false := by
  obtain ⟨first, listed, inRun⟩ := List.any_eq_true.mp digit
  have apart := zeroDigits_apart_from_blanks first listed
  simp only [Bool.and_eq_true, decide_eq_true_eq] at inRun
  simp [isBlank]
  omega

theorem toLower_eq_self {character : Char}
    (outside : ¬ (65 ≤ character.toNat ∧ character.toNat ≤ 90)) :
    character.toLower = character := by
  apply dif_neg
  intro upper
  have lower : 65 ≤ character.toNat := UInt32.le_iff_toNat_le.mp upper.1
  exact outside ⟨lower, UInt32.le_iff_toNat_le.mp upper.2⟩

theorem toLower_of_isBlank {character : Char}
    (blank : isBlank character = true) :
    character.toLower = character := by
  apply toLower_eq_self
  simp [isBlank] at blank
  omega

theorem lowerCase_of_isBlank {character : Char}
    (blank : isBlank character = true) :
    lowerCase character = character := by
  rw [lowerCase, if_neg, toLower_of_isBlank blank]
  intro kelvin
  rw [beq_iff_eq.mp kelvin] at blank
  cases blank

theorem foldCase_of_isBlank {character : Char}
    (blank : isBlank character = true) :
    foldCase character = character := by
  rw [foldCase, if_neg, lowerCase_of_isBlank blank]
  intro longS
  rw [beq_iff_eq.mp longS] at blank
  cases blank

/-- The digits of all scripts lie apart from the letters of ASCII. -/
theorem lt_or_lt_of_isDecimalDigit {digit : Char}
    (decimal : isDecimalDigit digit = true) :
    digit.toNat < 65 ∨ 122 < digit.toNat := by
  have apart : ∀ first ∈ zeroDigits, first + 9 < 65 ∨ 122 < first := by decide
  obtain ⟨first, listed, inRun⟩ := List.any_eq_true.mp decimal
  have outside := apart first listed
  simp only [Bool.and_eq_true, decide_eq_true_eq] at inRun
  omega

theorem toLower_of_isDecimalDigit {digit : Char}
    (decimal : isDecimalDigit digit = true) :
    digit.toLower = digit := by
  have outside := lt_or_lt_of_isDecimalDigit decimal
  exact toLower_eq_self (by omega)

theorem toLower_of_isDigit {digit : Char} (isDigit : digit.isDigit = true) :
    digit.toLower = digit :=
  toLower_of_isDecimalDigit (isDecimalDigit_of_isDigit isDigit)

theorem lowerCase_of_isDecimalDigit {digit : Char}
    (decimal : isDecimalDigit digit = true) :
    lowerCase digit = digit := by
  rw [lowerCase, if_neg, toLower_of_isDecimalDigit decimal]
  intro kelvin
  rw [beq_iff_eq.mp kelvin] at decimal
  revert decimal
  decide

namespace Pattern

theorem mem_repeated_blank {text : List Char} :
    text ∈ repeated blank ↔
      text ≠ [] ∧ ∀ character ∈ text, isBlank character = true :=
  mem_repeated_one

theorem isDecimalRun_iff {digits : List Char} :
    isDecimalRun digits = true ↔ digits ∈ repeated decimalDigit := by
  rw [decimalDigit, mem_repeated_one, isDecimalRun, Bool.and_eq_true,
    List.all_eq_true]
  simp

theorem isWord_of_mem_repeated_decimalDigit {digits : List Char}
    (matched : digits ∈ repeated decimalDigit) : IsWord digits := by
  obtain ⟨nonempty, digit⟩ := mem_repeated_one.mp matched
  exact ⟨nonempty,
    fun character member => isBlank_of_isDecimalDigit (digit character member)⟩

/--
What matches a keyword without blanks has no blanks, since case folding keeps
them.
-/
theorem isWord_of_mem_keyword {word : String} {text : List Char}
    (matched : text ∈ keyword word)
    (nonempty : word.toList.isEmpty = false)
    (solid : word.toList.any isBlank = false) :
    IsWord text := by
  rw [mem_keyword] at matched
  constructor
  · rintro rfl
    rw [← matched] at nonempty
    cases nonempty
  · intro character member
    by_contra blank
    rw [Bool.not_eq_false] at blank
    have inWord : character ∈ word.toList := by
      rw [← matched]
      exact List.mem_map.mpr ⟨character, member, foldCase_of_isBlank blank⟩
    have absent := List.any_eq_false.mp solid character inWord
    exact absent blank

end Pattern

end Text

/-! ## Words of a distance -/

theorem TimeUnit.ofName?_eq_some_iff {word : List Char} {unit : TimeUnit} :
    TimeUnit.ofName? word = some unit ↔ word ∈ unit.pattern := by
  rw [pattern, mem_keyword_mul_optional, mem_keyword_iff_foldsTo,
    mem_keyword_iff_foldsTo]
  constructor
  · intro found
    simpa using List.find?_some found
  · intro named
    unfold Text.foldsTo at named
    simp only [beq_iff_eq] at named
    rcases named with folded | folded <;>
      (unfold ofName? Text.foldsTo
       rw [folded]
       cases unit <;> rfl)

theorem TimeUnit.isWord_of_mem_pattern {word : List Char} {unit : TimeUnit}
    (matched : word ∈ unit.pattern) : IsWord word := by
  rw [pattern, mem_keyword_mul_optional] at matched
  rcases matched with singular | plural
  · exact isWord_of_mem_keyword singular (by cases unit <;> rfl)
      (by cases unit <;> rfl)
  · exact isWord_of_mem_keyword plural (by cases unit <;> rfl)
      (by cases unit <;> rfl)

namespace TimeDirection

/--
The words of a direction have no blanks at their ends, and are read as the
direction.
-/
theorem of_mem_pattern {direction : TimeDirection} {text : List Char}
    (matched : text ∈ direction.pattern) :
    IsTrimmed text ∧ ofWords? (Text.words text) = some direction := by
  cases direction with
  | ago =>
      have word := isWord_of_mem_keyword matched rfl rfl
      refine ⟨word.isTrimmed, ?_⟩
      rw [Text.words_eq_singleton word.ne_nil word.solid, ofWords?,
        if_pos (mem_keyword_iff_foldsTo.mp matched)]
  | fromNow =>
      obtain ⟨_, ⟨first, inFirst, gap, inGap, rfl⟩, second, inSecond, rfl⟩ :=
        matched
      have firstWord := isWord_of_mem_keyword inFirst rfl rfl
      have secondWord := isWord_of_mem_keyword inSecond rfl rfl
      obtain ⟨separate, blank⟩ := mem_repeated_blank.mp inGap
      refine ⟨firstWord.isTrimmed.append secondWord.isTrimmed gap, ?_⟩
      show ofWords? (Text.words (first ++ gap ++ second)) = _
      rw [Text.words_append_blanks blank separate,
        Text.words_eq_singleton firstWord.ne_nil firstWord.solid,
        Text.words_eq_singleton secondWord.ne_nil secondWord.solid]
      simp [ofWords?, mem_keyword_iff_foldsTo.mp inFirst,
        mem_keyword_iff_foldsTo.mp inSecond]

/--
A text that is read as a direction has its words, with blanks around them.
-/
theorem exists_of_ofWords? {direction : TimeDirection} {text : List Char}
    (read : ofWords? (Text.words text) = some direction) :
    ∃ lead ending tail, text = lead ++ ending ++ tail ∧
      (∀ b ∈ lead, Text.isBlank b = true) ∧ ending ∈ direction.pattern ∧
      ∀ b ∈ tail, Text.isBlank b = true := by
  unfold ofWords? at read
  split at read
  · next word split =>
      obtain ⟨lead, tail, rfl, leadBlank, -, -, wordless⟩ :=
        Text.exists_of_words_eq_cons split
      split at read
      · next folds =>
          cases read
          exact ⟨lead, word, tail, rfl, leadBlank,
            mem_keyword_iff_foldsTo.mpr folds,
            Text.isBlank_of_words_eq_nil wordless⟩
      · cases read
  · next first second split =>
      obtain ⟨lead, rest, rfl, leadBlank, -, separate, split⟩ :=
        Text.exists_of_words_eq_cons split
      obtain ⟨gap, tail, rfl, gapBlank, word, -, wordless⟩ :=
        Text.exists_of_words_eq_cons split
      split at read
      · next folds =>
          cases read
          rw [Bool.and_eq_true, ← mem_keyword_iff_foldsTo,
            ← mem_keyword_iff_foldsTo] at folds
          have nonempty := word.isTrimmed.ne_nil_of_append separate
          refine ⟨lead, first ++ gap ++ second, tail, by simp, leadBlank, ?_,
            Text.isBlank_of_words_eq_nil wordless⟩
          exact Language.append_mem_mul (Language.append_mem_mul folds.1
            (mem_repeated_blank.mpr ⟨nonempty, gapBlank⟩)) folds.2
      · cases read
  · cases read

end TimeDirection

namespace WrittenDistance

/-! ## Texts of distances -/

/-- A pattern with blanks around it. -/
def padded (language : Language Char) : Language Char :=
  blank∗ * language * blank∗

theorem mem_padded {language : Language Char} {text : List Char} :
    text ∈ padded language ↔
      ∃ lead core tail,
        text = lead ++ core ++ tail ∧ (∀ b ∈ lead, Text.isBlank b = true) ∧
          core ∈ language ∧ ∀ b ∈ tail, Text.isBlank b = true := by
  constructor
  · rintro ⟨_, ⟨lead, inLead, core, inCore, rfl⟩, tail, inTail, rfl⟩
    exact ⟨lead, core, tail, rfl, mem_kstar_one.mp inLead, inCore,
      mem_kstar_one.mp inTail⟩
  · rintro ⟨lead, core, tail, rfl, inLead, inCore, inTail⟩
    exact Language.append_mem_mul
      (Language.append_mem_mul (mem_kstar_one.mpr inLead) inCore)
      (mem_kstar_one.mpr inTail)

/--
Where a pattern matches no blanks at the ends, the blanks around it are those
removed.
-/
theorem mem_padded_iff_trim {language : Language Char} {text : List Char}
    (trimmed : ∀ core ∈ language, IsTrimmed core) :
    text ∈ padded language ↔ Text.trim text ∈ language := by
  rw [mem_padded]
  constructor
  · rintro ⟨lead, core, tail, rfl, leadBlank, inCore, tailBlank⟩
    rwa [(trimmed core inCore).trim_append leadBlank tailBlank]
  · intro matched
    obtain ⟨lead, tail, shape, leadBlank, tailBlank⟩ := Text.exists_trim text
    exact ⟨lead, Text.trim text, tail, shape, leadBlank, matched, tailBlank⟩

theorem mem_pattern {amount : Language Char} {unit : TimeUnit}
    {direction : TimeDirection} {text : List Char} :
    text ∈ pattern amount unit direction ↔
      ∃ digits ∈ amount, ∃ gap ∈ repeated blank, ∃ name ∈ unit.pattern,
        ∃ nextGap ∈ repeated blank, ∃ ending ∈ direction.pattern,
          text = digits ++ gap ++ name ++ nextGap ++ ending := by
  constructor
  · rintro ⟨_, ⟨_, ⟨_, ⟨digits, inAmount, gap, inGap, rfl⟩, name, inUnit, rfl⟩,
      nextGap, inNextGap, rfl⟩, ending, inDirection, rfl⟩
    exact ⟨digits, inAmount, gap, inGap, name, inUnit, nextGap, inNextGap,
      ending, inDirection, rfl⟩
  · rintro ⟨digits, inAmount, gap, inGap, name, inUnit, nextGap, inNextGap,
      ending, inDirection, rfl⟩
    have counted := Language.append_mem_mul inAmount inGap
    have measured := Language.append_mem_mul counted inUnit
    have parted := Language.append_mem_mul measured inNextGap
    exact Language.append_mem_mul parted inDirection

theorem isTrimmed_of_mem_pattern {amount : Language Char} {unit : TimeUnit}
    {direction : TimeDirection}
    (runs : ∀ digits ∈ amount, digits ∈ repeated decimalDigit) :
    ∀ text ∈ pattern amount unit direction, IsTrimmed text := by
  intro text matched
  obtain ⟨digits, inAmount, gap, -, name, -, nextGap, -, ending, inDirection,
    rfl⟩ := mem_pattern.mp matched
  have start :=
    (isWord_of_mem_repeated_decimalDigit (runs digits inAmount)).isTrimmed
  have stop := (TimeDirection.of_mem_pattern inDirection).1
  simpa using start.append stop (gap ++ name ++ nextGap)

/--
Inversion of reading a distance: its words are a number, a unit and a direction.
-/
theorem ofText?_eq_some_iff_words {text digits : List Char} {unit : TimeUnit}
    {direction : TimeDirection} :
    ofText? text = some ⟨digits, unit, direction⟩ ↔
      ∃ name others, Text.words text = digits :: name :: others ∧
        Text.isDecimalRun digits = true ∧ TimeUnit.ofName? name = some unit ∧
          TimeDirection.ofWords? others = some direction := by
  constructor
  · intro written
    unfold ofText? at written
    split at written
    · next first name others words =>
        split at written
        · next run =>
            split at written
            · next named directed =>
                cases written
                exact ⟨name, others, words, run, named, directed⟩
            · cases written
        · cases written
    · cases written
  · rintro ⟨name, others, words, run, named, directed⟩
    simp only [ofText?, words, run, named, directed, if_true]

/-- The words of a text that matches the pattern, with blanks around it. -/
theorem words_of_mem_pattern {lead core tail digits : List Char}
    {unit : TimeUnit}
    {direction : TimeDirection} (leadBlank : ∀ b ∈ lead, Text.isBlank b = true)
    (tailBlank : ∀ b ∈ tail, Text.isBlank b = true)
    (run : digits ∈ repeated decimalDigit)
    (matched : core ∈ pattern {digits} unit direction) :
    ∃ name ∈ unit.pattern, ∃ ending ∈ direction.pattern,
      Text.words (lead ++ core ++ tail) =
        digits :: name :: Text.words ending := by
  obtain ⟨amount, rfl, gap, inGap, name, inUnit, nextGap, inNextGap, ending,
    inDirection, rfl⟩ := mem_pattern.mp matched
  have amountWord := isWord_of_mem_repeated_decimalDigit run
  have nameWord := TimeUnit.isWord_of_mem_pattern inUnit
  obtain ⟨separate, gapBlank⟩ := mem_repeated_blank.mp inGap
  obtain ⟨nextSeparate, nextGapBlank⟩ := mem_repeated_blank.mp inNextGap
  refine ⟨name, inUnit, ending, inDirection, ?_⟩
  rw [Text.words_append_blanks_end tailBlank,
    Text.words_blanks_append leadBlank,
    Text.words_append_blanks nextGapBlank nextSeparate,
    Text.words_append_blanks gapBlank separate,
    Text.words_eq_singleton amountWord.ne_nil amountWord.solid,
    Text.words_eq_singleton nameWord.ne_nil nameWord.solid]
  rfl

/--
A text writes a distance exactly if it matches the pattern, apart from blanks
around it.
-/
theorem ofText?_eq_some_iff {text digits : List Char} {unit : TimeUnit}
    {direction : TimeDirection} :
    ofText? text = some ⟨digits, unit, direction⟩ ↔
      digits ∈ repeated decimalDigit ∧
        text ∈ padded (pattern {digits} unit direction) := by
  rw [ofText?_eq_some_iff_words, mem_padded]
  constructor
  · rintro ⟨name, others, words, run, named, directed⟩
    obtain ⟨lead, rest, rfl, leadBlank, -, separate, wordsAfter⟩ :=
      Text.exists_of_words_eq_cons words
    obtain ⟨gap, rest, rfl, gapBlank, word, nextSeparate, rfl⟩ :=
      Text.exists_of_words_eq_cons wordsAfter
    obtain ⟨nextGap, ending, tail, rfl, nextGapBlank, inDirection, tailBlank⟩ :=
      TimeDirection.exists_of_ofWords? directed
    have gapNonempty := word.isTrimmed.ne_nil_of_append separate
    have nextGapNonempty :=
      (TimeDirection.of_mem_pattern inDirection).1.ne_nil_of_append nextSeparate
    refine ⟨isDecimalRun_iff.mp run, lead, _, tail, ?_, leadBlank,
      mem_pattern.mpr
        ⟨digits, rfl, gap, mem_repeated_blank.mpr ⟨gapNonempty, gapBlank⟩, name,
          TimeUnit.ofName?_eq_some_iff.mp named, nextGap,
          mem_repeated_blank.mpr ⟨nextGapNonempty, nextGapBlank⟩, ending,
          inDirection, rfl⟩, tailBlank⟩
    simp
  · rintro ⟨run, lead, core, tail, rfl, leadBlank, matched, tailBlank⟩
    obtain ⟨name, inUnit, ending, inDirection, words⟩ :=
      words_of_mem_pattern leadBlank tailBlank run matched
    exact ⟨name, _, words, isDecimalRun_iff.mpr run,
      TimeUnit.ofName?_eq_some_iff.mpr inUnit,
      (TimeDirection.of_mem_pattern inDirection).2⟩

theorem ofText?_trim (text : List Char) :
    ofText? (Text.trim text) = ofText? text := by
  rw [ofText?, Text.words_trim, ofText?]

theorem ofText?_eq_some_iff_trim {text digits : List Char} {unit : TimeUnit}
    {direction : TimeDirection} :
    ofText? text = some ⟨digits, unit, direction⟩ ↔
      digits ∈ repeated decimalDigit ∧
        Text.trim text ∈ pattern {digits} unit direction := by
  rw [ofText?_eq_some_iff]
  refine and_congr_right fun run =>
    mem_padded_iff_trim (isTrimmed_of_mem_pattern ?_)
  rintro _ rfl
  exact run

/-- The distances in a unit and a direction, whatever their amount. -/
theorem exists_ofText?_iff {text : List Char} {unit : TimeUnit}
    {direction : TimeDirection} :
    (∃ digits, ofText? text = some ⟨digits, unit, direction⟩) ↔
      Text.trim text ∈ relative unit direction := by
  simp only [ofText?_eq_some_iff_trim, relative, mem_pattern]
  constructor
  · rintro ⟨_, run, amount, rfl, matched⟩
    exact ⟨amount, run, matched⟩
  · rintro ⟨digits, run, matched⟩
    exact ⟨digits, run, digits, rfl, matched⟩

theorem padded_relative_minute_ago :
    padded (relative .minute .ago) = minutesAgo := by
  simp only [padded, relative, pattern, minutesAgo, TimeUnit.pattern,
    TimeDirection.pattern, TimeUnit.name, mul_assoc]

end WrittenDistance

end SearchPhrase
