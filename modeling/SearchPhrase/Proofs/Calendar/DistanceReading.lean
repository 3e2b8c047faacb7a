import SearchPhrase.Proofs.Calendar.Distance
import SearchPhrase.Proofs.Calendar.DistancePattern

/-!
# Reading distances

A text that writes a distance is read as the instant that far from the
reference, if its digits are those of ASCII.  It names no day, and it is no
written date, since a written date has a mark that no distance has.

The main statements are about phrases such as `3 days ago`.  A longer distance
in the same unit lies further away, and is in the calendar only if the shorter
one is; and distances that are equal as numbers of days or of months are read as
the same instant, or none of them is.
-/

namespace SearchPhrase

open Text.Pattern

/-! ## Marks of written dates -/

namespace Layout

/-- A layout reads only texts that have each of its marks, and no less often. -/
theorem count_le_of_read {mark : Char} {layout : Layout} :
    ∀ {reading result : Reading} {text : List Char},
      read reading layout text = some result →
        layout.count (.mark mark) ≤ text.count mark := by
  induction layout with
  | nil => simp
  | cons item items ih =>
      intro reading result text accepted
      cases item with
      | gap =>
          rw [read_gap] at accepted
          rw [List.count_cons_of_ne (by simp)]
          exact (ih accepted).trans
            ((Text.trimStart_suffix text).sublist.count_le mark)
      | mark character =>
          obtain ⟨rest, rfl, remaining⟩ := read_mark_iff.mp accepted
          have later := ih remaining
          simp only [List.count_cons, beq_iff_eq, Item.mark.injEq]
          omega
      | part part =>
          have skipped := (Text.trimStart_suffix text).sublist.count_le mark
          rw [List.count_cons_of_ne (by simp)]
          refine le_trans ?_ skipped
          by_cases isYear : part = .year
          · subst isYear
            obtain ⟨year, rest, taken, remaining⟩ := read_year_iff.mp accepted
            obtain ⟨sign, digits, number, shape, -⟩ := exists_of_year? taken
            rw [shape, List.count_append]
            exact (ih remaining).trans (Nat.le_add_left _ _)
          · obtain ⟨number, rest, taken, remaining⟩ :=
              (read_part_iff isYear).mp accepted
            obtain ⟨digits, shape, -⟩ := digits?_eq_some_iff.mp taken
            rw [shape, List.count_append]
            exact (ih remaining).trans (Nat.le_add_left _ _)

theorem two_le_count_of_mem_all :
    ∀ layout ∈ all, 2 ≤ layout.count (.mark '-') ∨
      2 ≤ layout.count (.mark '/') := by
  decide

end Layout

namespace TimeExpression

/-- A written date has two hyphens, or a mark of another kind. -/
theorem hyphens_or_mark_of_written? {text : List Char}
    (written : (written? text).isSome = true) :
    2 ≤ text.count '-' ∨ ∃ mark ∈ ['/', ':', 'Z', 'z'], mark ∈ text := by
  unfold written? at written
  split at written
  · next instant found =>
      obtain ⟨layout, listed, accepted⟩ :=
        List.exists_of_findSome?_eq_some found
      have isRead : (layout.instant? text).isSome = true := by
        rw [accepted]; rfl
      obtain ⟨reading, taken⟩ := Layout.exists_read_of_instant? isRead
      rcases Layout.two_le_count_of_mem_all layout listed with hyphens | slashes
      · exact .inl (hyphens.trans (Layout.count_le_of_read taken))
      · have inText := slashes.trans (Layout.count_le_of_read taken)
        exact .inr ⟨'/', by decide, List.count_pos_iff.mp (by omega)⟩
  · right
    rcases Timestamp.separator_of_instant? written with upper | lower | colons
    · exact ⟨'Z', by decide, upper⟩
    · exact ⟨'z', by decide, lower⟩
    · exact ⟨':', by decide, List.count_pos_iff.mp (by omega)⟩

/-- The marks of which a written date has at least one. -/
def dateMarks : List Char :=
  ['-', '/', ':', 'Z', 'z']

theorem exists_dateMark_of_written? {text : List Char}
    (written : (written? text).isSome = true) :
    ∃ mark ∈ dateMarks, mark ∈ text := by
  rcases hyphens_or_mark_of_written? written with
    hyphens | ⟨mark, listed, inside⟩
  · exact ⟨'-', by decide, List.count_pos_iff.mp (by omega)⟩
  · exact ⟨mark, List.mem_cons_of_mem '-' listed, inside⟩

end TimeExpression

/-! ## Texts of distances -/

theorem Text.Pattern.foldCase_mem_of_mem_keyword
    {word : String} {text : List Char}
    (matched : text ∈ keyword word) {character : Char}
    (member : character ∈ text) :
    Text.foldCase character ∈ word.toList := by
  rw [← mem_keyword.mp matched]
  exact List.mem_map_of_mem member

namespace WrittenDistance

/-- The letters of the units and the directions. -/
def letters : List Char :=
  "adefghikmnorstuwy".toList

theorem mem_letters {word : String} {character : Char}
    (member : character ∈ word.toList)
    (spelled : (word.toList.all fun letter => letters.contains letter) = true) :
    character ∈ letters :=
  List.contains_iff_mem.mp (List.all_eq_true.mp spelled character member)

theorem foldCase_mem_letters_of_unit {unit : TimeUnit} {text : List Char}
    (matched : text ∈ unit.pattern) {character : Char}
    (member : character ∈ text) :
    Text.foldCase character ∈ letters := by
  rw [TimeUnit.pattern, mem_keyword_mul_optional] at matched
  rcases matched with singular | plural
  · exact mem_letters (foldCase_mem_of_mem_keyword singular member)
      (by cases unit <;> rfl)
  · exact mem_letters (foldCase_mem_of_mem_keyword plural member)
      (by cases unit <;> rfl)

theorem blank_or_letter_of_direction {direction : TimeDirection}
    {text : List Char}
    (matched : text ∈ direction.pattern) {character : Char}
    (member : character ∈ text) :
    Text.isBlank character = true ∨ Text.foldCase character ∈ letters := by
  cases direction with
  | ago =>
      exact Or.inr
        (mem_letters (foldCase_mem_of_mem_keyword matched member) rfl)
  | fromNow =>
      obtain ⟨_, ⟨first, inFirst, gap, inGap, rfl⟩, second, inSecond, rfl⟩ :=
        matched
      rcases List.mem_append.mp member with earlier | inside
      · rcases List.mem_append.mp earlier with inside | between
        · exact Or.inr
            (mem_letters (foldCase_mem_of_mem_keyword inFirst inside) rfl)
        · exact Or.inl ((mem_repeated_blank.mp inGap).2 character between)
      · exact Or.inr
          (mem_letters (foldCase_mem_of_mem_keyword inSecond inside) rfl)

/--
A distance has blanks, decimal digits and the letters of its words, and nothing
else.
-/
theorem classified_of_ofText? {text : List Char} {written : WrittenDistance}
    (found : ofText? text = some written) {character : Char}
    (member : character ∈ text) :
    Text.isBlank character = true ∨ Text.isDecimalDigit character = true ∨
      Text.foldCase character ∈ letters := by
  obtain ⟨run, matched⟩ := ofText?_eq_some_iff.mp found
  obtain ⟨lead, core, tail, rfl, leadBlank, inCore, tailBlank⟩ :=
    mem_padded.mp matched
  obtain ⟨amount, rfl, gap, inGap, name, inUnit, nextGap, inNextGap, ending,
    inDirection, rfl⟩ := mem_pattern.mp inCore
  simp only [List.mem_append] at member
  rcases member with
    (before | ((((digit | between) | letter) | between) | last)) | after
  · exact Or.inl (leadBlank character before)
  · exact Or.inr (Or.inl ((mem_repeated_one.mp run).2 character digit))
  · exact Or.inl ((mem_repeated_blank.mp inGap).2 character between)
  · exact Or.inr (Or.inr (foldCase_mem_letters_of_unit inUnit letter))
  · exact Or.inl ((mem_repeated_blank.mp inNextGap).2 character between)
  · exact (blank_or_letter_of_direction inDirection last).imp_right Or.inr
  · exact Or.inl (tailBlank character after)

/-- A distance is no written date. -/
theorem written?_eq_none {text : List Char} {written : WrittenDistance}
    (found : ofText? text = some written) :
    TimeExpression.written? text = none := by
  by_contra isDate
  obtain ⟨mark, listed, inside⟩ :=
    TimeExpression.exists_dateMark_of_written?
      (Option.isSome_iff_ne_none.mpr isDate)
  have classified := classified_of_ofText? found inside
  simp only [TimeExpression.dateMarks, List.mem_cons, List.not_mem_nil,
    or_false] at listed
  rcases listed with rfl | rfl | rfl | rfl | rfl <;>
    revert classified <;> decide

/-- A distance has a blank between its words. -/
theorem exists_blank_of_ofText? {text : List Char} {written : WrittenDistance}
    (found : ofText? text = some written) :
    ∃ blank ∈ text, Text.isBlank blank = true := by
  unfold ofText? at found
  split at found
  · next words => exact Text.exists_blank_of_words words
  · cases found

end WrittenDistance

namespace TimeExpression

/--
A character is in no keyword for a day if none of them has a character of its
class.
-/
theorem not_mem_dayName {inClass : Char → Bool}
    (apart : (dayNames.all fun name => !name.toList.any inClass) = true)
    {character : Char}
    (classed : inClass character = true) :
    ∀ name ∈ dayNames, character ∉ name.toList := by
  intro name listed inside
  have none := List.all_eq_true.mp apart name listed
  simp only [Bool.not_eq_true', List.any_eq_false] at none
  exact none character inside classed

/--
A text that writes a distance is read as the distance, if its digits are those
of ASCII.
-/
theorem ofText?_of_distance {text : String} {written : WrittenDistance}
    (found : WrittenDistance.ofText? text.toList = some written) :
    ofText? text = (Text.nat? written.digits).map fun amount =>
      .distance amount written.unit written.direction := by
  rw [← WrittenDistance.ofText?_trim] at found
  obtain ⟨blank, inside, isBlank⟩ :=
    WrittenDistance.exists_blank_of_ofText? found
  have apart := not_mem_dayName (by decide) isBlank
  have notNumber : (Text.trim text.toList).all Char.isDigit = false := by
    refine List.all_eq_false.mpr ⟨blank, inside, fun digit => ?_⟩
    rw [Text.isBlank_of_isDigit digit] at isBlank
    cases isBlank
  have notDay :=
    dayName?_eq_none_of_mem inside apart (Text.lowerCase_of_isBlank isBlank)
  have notWeekday :=
    weekday_eq_none_of_mem inside apart (Text.toLower_of_isBlank isBlank)
  have notDate := WrittenDistance.written?_eq_none found
  simp only [ofText?, notNumber, notDay, notWeekday, notDate, distance?, found,
    Option.map_none]
  cases Text.nat? written.digits <;> rfl

/-- A text that writes a distance is read as the instant that far away. -/
theorem read_of_distance (reference : Instant)
    {text : String} {written : WrittenDistance}
    (found : WrittenDistance.ofText? text.toList = some written) :
    read reference text = .ok ((Text.nat? written.digits).bind fun amount =>
      exactMove? reference written.unit (written.direction.sign * amount)) := by
  rw [read, ofText?_of_distance found]
  cases Text.nat? written.digits with
  | none => rfl
  | some amount =>
      exact resolve_distance reference amount written.unit written.direction

end TimeExpression

/-! ## Phrases -/

/-- The words of a direction as they are usually written. -/
def TimeDirection.words : TimeDirection → String
  | .ago => "ago"
  | .fromNow => "from now"

namespace TimeExpression

/--
The usual text of a distance, with the unit in the plural, such as `3 days ago`.
-/
def phrase (amount : ℕ) (unit : TimeUnit) (direction : TimeDirection) :
    String :=
  Nat.repr amount ++ " " ++ unit.name ++ "s " ++ direction.words

example : phrase 3 .day .ago = "3 days ago" := by decide

theorem ofText?_phrase (amount : ℕ) (unit : TimeUnit)
    (direction : TimeDirection) :
    WrittenDistance.ofText? (phrase amount unit direction).toList =
      some ⟨Nat.toDigits 10 amount, unit, direction⟩ := by
  have run : Nat.toDigits 10 amount ∈ repeated decimalDigit :=
    mem_repeated_one.mpr ⟨Nat.toDigits_ne_nil, fun _ digit =>
      Text.isDecimalDigit_of_isDigit
        (Nat.isDigit_of_mem_toDigits (by decide) (by decide) digit)⟩
  have space : [' '] ∈ repeated blank :=
    mem_repeated_blank.mpr ⟨by decide, by simp [Text.isBlank]⟩
  have name : (unit.name ++ "s").toList ∈ unit.pattern := by
    rw [TimeUnit.pattern, mem_keyword_mul_optional, mem_keyword, mem_keyword]
    exact Or.inr (by cases unit <;> rfl)
  have ending : direction.words.toList ∈ direction.pattern := by
    cases direction with
    | ago => exact mem_keyword.mpr rfl
    | fromNow =>
        have first : "from".toList ∈ keyword "from" := mem_keyword.mpr rfl
        have second : "now".toList ∈ keyword "now" := mem_keyword.mpr rfl
        exact Language.append_mem_mul
          (Language.append_mem_mul first space) second
  rw [WrittenDistance.ofText?_eq_some_iff, WrittenDistance.mem_padded]
  refine ⟨run, [], _, [], ?_, by simp, WrittenDistance.mem_pattern.mpr
    ⟨_, rfl, _, space, _, name, _, space, _, ending, rfl⟩, by simp⟩
  simp [phrase, Nat.toList_repr]

theorem nat?_toDigits (amount : ℕ) :
    Text.nat? (Nat.toDigits 10 amount) = some amount :=
  Text.nat?_eq_some_iff.mpr ⟨Nat.toDigits_ne_nil,
    fun _ digit => Nat.isDigit_of_mem_toDigits (by decide) (by decide) digit,
    Nat.ofDigitChars_ten_toDigits⟩

/-- A phrase is read as the instant that far away, counted exactly. -/
theorem read_phrase (reference : Instant) (amount : ℕ) (unit : TimeUnit)
    (direction : TimeDirection) :
    read reference (phrase amount unit direction) =
      .ok (exactMove? reference unit (direction.sign * amount)) := by
  rw [read_of_distance reference (ofText?_phrase amount unit direction),
    nat?_toDigits]
  rfl

theorem read_phrase_eq_some_iff {reference instant : Instant} {amount : ℕ}
    {unit : TimeUnit} {direction : TimeDirection} :
    read reference (phrase amount unit direction) = .ok (some instant) ↔
      exactMove? reference unit (direction.sign * amount) = some instant := by
  rw [read_phrase, Except.ok.injEq]

/-! ## Longer distances -/

section Order

variable {reference far : Instant} {unit : TimeUnit} {fewer more : ℕ}

theorem exists_nearer_past (less : fewer < more)
    (atFar : read reference (phrase more unit .ago) = .ok (some far)) :
    ∃ near, read reference (phrase fewer unit .ago) = .ok (some near) ∧
      far < near := by
  have motion := isMotion_exactMove? reference unit
  simp only [read_phrase_eq_some_iff, TimeDirection.sign] at *
  obtain ⟨near, atNear⟩ :=
    motion.exists_between (show -1 * (more : ℤ) ≤ -1 * fewer by omega)
      (show -1 * (fewer : ℤ) ≤ 0 by omega) atFar
      (exactMove?_zero reference unit)
  exact ⟨near, atNear, motion.lt_of_lt (by omega) atFar atNear⟩

theorem exists_nearer_future (less : fewer < more)
    (atFar : read reference (phrase more unit .fromNow) = .ok (some far)) :
    ∃ near, read reference (phrase fewer unit .fromNow) = .ok (some near) ∧
      near < far := by
  have motion := isMotion_exactMove? reference unit
  simp only [read_phrase_eq_some_iff, TimeDirection.sign] at *
  obtain ⟨near, atNear⟩ :=
    motion.exists_between (show 0 ≤ 1 * (fewer : ℤ) by omega)
      (show 1 * (fewer : ℤ) ≤ 1 * more by omega)
      (exactMove?_zero reference unit) atFar
  exact ⟨near, atNear, motion.lt_of_lt (by omega) atNear atFar⟩

/--
A distance to the past does not lead past the start of the day of the reference.
-/
theorem le_of_read_ago {past : Instant} {amount : ℕ}
    (atPast : read reference (phrase amount unit .ago) = .ok (some past)) :
    past ≤ reference := by
  have motion := isMotion_exactMove? reference unit
  simp only [read_phrase_eq_some_iff, TimeDirection.sign] at atPast
  apply
    (motion.le_of_le (by omega) atPast (exactMove?_zero reference unit)).trans
  split
  · exact le_rfl
  · exact reference.midnight_le

theorem le_of_read_fromNow {future : Instant} {amount : ℕ}
    (short : unit = .minute ∨ unit = .hour)
    (atFuture :
      read reference (phrase amount unit .fromNow) = .ok (some future)) :
    reference ≤ future := by
  have motion := isMotion_exactMove? reference unit
  have stays := exactMove?_zero reference unit
  rw [if_pos short] at stays
  simp only [read_phrase_eq_some_iff, TimeDirection.sign] at atFuture
  exact motion.le_of_le (by omega) stays atFuture

end Order

/--
In every unit, a longer distance lies further away from any reference: a longer
one to the past is earlier and a longer one to the future is later, and if it is
in the calendar then so are the shorter ones.  No distance to the past is after
the reference.  No distance to the future in minutes or hours is before it; the
longer units lead to the start of a day, which may be.
-/
theorem longer_distances_lie_further (reference : Instant) (unit : TimeUnit) :
    (∀ fewer more : ℕ, fewer < more →
      (∀ far, read reference (phrase more unit .ago) = .ok (some far) →
        ∃ near, read reference (phrase fewer unit .ago) = .ok (some near) ∧
          far < near) ∧
      ∀ far, read reference (phrase more unit .fromNow) = .ok (some far) →
        ∃ near, read reference (phrase fewer unit .fromNow) = .ok (some near) ∧
          near < far) ∧
    (∀ amount past, read reference (phrase amount unit .ago) = .ok (some past) →
      past ≤ reference) ∧
    (unit = .minute ∨ unit = .hour → ∀ amount future,
      read reference (phrase amount unit .fromNow) = .ok (some future) →
        reference ≤ future) :=
  ⟨fun _ _ less =>
    ⟨fun _ => exists_nearer_past less, fun _ => exists_nearer_future less⟩,
    fun _ _ => le_of_read_ago, fun short _ _ => le_of_read_fromNow short⟩

/-- The leap second at the end of a month with 31 days. -/
def endOfMarch : Instant :=
  (Instant.ofClock? ((Date.of? 2024 3 31).get rfl) 23 59 60 500000000).get rfl

/--
Two months and one month before the end of March are the ends of January and
February.
-/
theorem longer_distances_lie_further_clamped :
    read endOfMarch (phrase 2 .month .ago) =
        .ok (some (.midnight ((Date.of? 2024 1 31).get rfl))) ∧
      ∃ near, read endOfMarch (phrase 1 .month .ago) = .ok (some near) ∧
        .midnight ((Date.of? 2024 1 31).get rfl) < near := by
  have atFar : read endOfMarch (phrase 2 .month .ago) =
      .ok (some (.midnight ((Date.of? 2024 1 31).get rfl))) := by
    rw [read_phrase]
    rfl
  have nearer :=
    (longer_distances_lie_further endOfMarch .month).1 1 2 (by decide)
  exact ⟨atFar, nearer.1 _ atFar⟩

/-! ## Equal distances -/

/--
A week has seven days, and a year has twelve months, however many there are.
-/
theorem exactMove?_multiple (reference : Instant) (direction : TimeDirection)
    (amount : ℕ) :
    exactMove? reference .week (direction.sign * amount) =
        exactMove? reference .day (direction.sign * (7 * amount : ℕ)) ∧
      exactMove? reference .year (direction.sign * amount) =
        exactMove? reference .month (direction.sign * (12 * amount : ℕ)) := by
  have multiple (factor : ℕ) : (factor : ℤ) * (direction.sign * amount) =
      direction.sign * (factor * amount : ℕ) := by
    rw [Int.natCast_mul, Int.mul_left_comm]
  constructor
  · rw [← multiple 7]
    rfl
  · rw [← multiple 12]
    rfl

/-- Going back by days and forth again leads to the start of the day. -/
theorem exactMove?_day_back {reference instant : Instant} {days : ℤ}
    (moved : exactMove? reference .day (-days) = some instant) :
    exactMove? instant .day days = some (.midnight reference.date) := by
  obtain ⟨date, reached, rfl⟩ := Option.map_eq_some_iff.mp moved
  have number := Date.toDayNumber_of_addDays? reached
  have back : date.addDays? days = some reference.date :=
    Date.addDays?_eq_some_iff.mpr (by omega)
  show (date.addDays? days).map Instant.midnight = _
  rw [back, Option.map_some]

/--
Phrases that say the same lead to the same instant, or all of them out of the
calendar: a week is seven days and a year twelve months, at any amount and in
both directions; today is no day and no month away, and yesterday and tomorrow
are a day away.  From where a number of days to the past leads, the same number
of days to the future leads back to the start of the day.
-/
theorem equal_distances_agree (reference : Instant) :
    (∀ amount direction, ∃ result,
      read reference (phrase amount .week direction) = .ok result ∧
        read reference (phrase (7 * amount) .day direction) = .ok result) ∧
    (∀ amount direction, ∃ result,
      read reference (phrase amount .year direction) = .ok result ∧
        read reference (phrase (12 * amount) .month direction) = .ok result) ∧
    (read reference "today" = .ok (some (.midnight reference.date)) ∧
      read reference "0 days ago" = .ok (some (.midnight reference.date)) ∧
      read reference "0 months ago" = .ok (some (.midnight reference.date))) ∧
    (∃ result, read reference "yesterday" = .ok result ∧
      read reference "1 day ago" = .ok result) ∧
    (∃ result, read reference "tomorrow" = .ok result ∧
      read reference "1 day from now" = .ok result) ∧
    ∀ amount instant,
      read reference (phrase amount .day .ago) = .ok (some instant) →
        read instant (phrase amount .day .fromNow) =
          .ok (some (.midnight reference.date)) := by
  have multiple (amount : ℕ) (direction : TimeDirection) :=
    exactMove?_multiple reference direction amount
  have noDays : read reference (phrase 0 .day .ago) = _ :=
    read_phrase reference 0 .day .ago
  have noMonths : read reference (phrase 0 .month .ago) = _ :=
    read_phrase reference 0 .month .ago
  have dayAgo :
      WrittenDistance.ofText? "1 day ago".toList = some ⟨['1'], .day, .ago⟩ :=
    rfl
  have dayAhead : WrittenDistance.ofText? "1 day from now".toList =
      some ⟨['1'], .day, .fromNow⟩ := rfl
  refine ⟨fun amount direction => ⟨_, read_phrase .., ?_⟩,
    fun amount direction => ⟨_, read_phrase .., ?_⟩, ⟨rfl, ?_, ?_⟩,
    ⟨_, rfl, read_of_distance reference dayAgo⟩,
    ⟨_, rfl, read_of_distance reference dayAhead⟩, ?_⟩
  · rw [read_phrase, (multiple amount direction).1]
  · rw [read_phrase, (multiple amount direction).2]
  · exact noDays.trans (congrArg Except.ok (exactMove?_zero reference .day))
  · exact noMonths.trans (congrArg Except.ok (exactMove?_zero reference .month))
  · intro amount instant atPast
    simp only [read_phrase_eq_some_iff, TimeDirection.sign, Int.one_mul,
      Int.neg_mul] at *
    exact exactMove?_day_back atPast

/--
A day before the second day of the calendar is its first day, and leads back.
-/
theorem equal_distances_agree_first_day :
    read (.midnight ((Date.first.addDays? 1).get rfl)) (phrase 1 .day .ago) =
        .ok (some (.midnight Date.first)) ∧
      read (.midnight Date.first) (phrase 1 .day .fromNow) =
        .ok (some (.midnight ((Date.first.addDays? 1).get rfl))) := by
  have atFirst :
      read (.midnight ((Date.first.addDays? 1).get rfl)) (phrase 1 .day .ago) =
        .ok (some (.midnight Date.first)) := by
    rw [read_phrase]
    rfl
  obtain ⟨-, -, -, -, -, leadsBack⟩ :=
    equal_distances_agree (.midnight ((Date.first.addDays? 1).get rfl))
  exact ⟨atFirst, leadsBack 1 _ atFirst⟩

end TimeExpression

end SearchPhrase
