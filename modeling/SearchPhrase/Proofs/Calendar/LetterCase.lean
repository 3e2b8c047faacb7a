import SearchPhrase.Proofs.Calendar.DistanceReading

/-!
# Letter case and blanks in time expressions

Blanks at the ends of a text do not change the time that it writes.  Nor does
the case of its letters, with one exception.  Keywords, names and the words of a
distance are compared in any case, layouts without letters read no letters at
all, and a timestamp has its letters in both cases.  The two layouts with a `T`
between date and time, however, read that letter only in upper case.

The main statement says which texts are concerned: those that one of the two
layouts reads once they are in upper case.
-/

namespace SearchPhrase

/-! ## Letters -/

namespace Text

/-- The twenty-six letters whose codes start with a given one. -/
def lettersFrom (first : Nat) : List Char :=
  (List.range 26).map fun place => Char.ofNat (first + place)

/-- The letters in upper case. -/
def capitals : List Char :=
  lettersFrom 0x41

/-- The letters in lower case. -/
def smallLetters : List Char :=
  lettersFrom 0x61

theorem mem_lettersFrom
    {character : Char} {first last : UInt32}
    (few : last.toNat < first.toNat + 26)
    (bounds : first ≤ character.val ∧ character.val ≤ last) :
    character ∈ lettersFrom first.toNat := by
  have notBefore : first.toNat ≤ character.toNat :=
    UInt32.le_iff_toNat_le.mp bounds.1
  have notAfter : character.toNat ≤ last.toNat :=
    UInt32.le_iff_toNat_le.mp bounds.2
  refine List.mem_map.mpr ⟨character.toNat - first.toNat, ?_, ?_⟩
  · exact List.mem_range.mpr (by omega)
  · rw [Nat.add_sub_cancel' notBefore, Char.ofNat_toNat]

/-- Only capital letters are changed to lower case. -/
theorem toLower_of_notMem
    {character : Char} (other : character ∉ capitals) :
    character.toLower = character :=
  dif_neg fun bounds => other (mem_lettersFrom (by decide) bounds)

/-- Only small letters are changed to upper case. -/
theorem toUpper_of_notMem
    {character : Char} (other : character ∉ smallLetters) :
    character.toUpper = character :=
  dif_neg fun bounds => other (mem_lettersFrom (by decide) bounds)

theorem isAlpha_of_mem
    {letters : List Char} (alphabetic : letters.all Char.isAlpha = true)
    {letter : Char} (listed : letter ∈ letters) : letter.isAlpha = true :=
  List.all_eq_true.mp alphabetic letter listed

/-- No character is a capital letter once it is in lower case. -/
theorem toLower_notMem_capitals (character : Char) :
    character.toLower ∉ capitals := by
  by_cases capital : character ∈ capitals
  · have changed :
        (capitals.all fun letter => !capitals.contains letter.toLower) =
          true := by
      decide
    simpa using List.all_eq_true.mp changed character capital
  · rwa [toLower_of_notMem capital]

section Ignoring

variable {α : Type} [DecidableEq α] {property : Char → α}

/--
A property that ignores a change of letters ignores it for all characters.
-/
theorem eq_of_letters
    {change : Char → Char} {letters : List Char}
    (fixed : ∀ character, character ∉ letters → change character = character)
    (ignored : (letters.all fun letter =>
      property (change letter) = property letter) = true)
    (character : Char) : property (change character) = property character := by
  by_cases listed : character ∈ letters
  · exact of_decide_eq_true (List.all_eq_true.mp ignored character listed)
  · rw [fixed character listed]

/-- A property ignores lower case if it does so for the capital letters. -/
theorem eq_toLower
    (ignored : (capitals.all fun letter =>
      property letter.toLower = property letter) = true)
    (character : Char) : property character.toLower = property character :=
  eq_of_letters (fun _ => toLower_of_notMem) ignored character

/-- A property ignores upper case if it does so for the small letters. -/
theorem eq_toUpper
    (ignored : (smallLetters.all fun letter =>
      property letter.toUpper = property letter) = true)
    (character : Char) : property character.toUpper = property character :=
  eq_of_letters (fun _ => toUpper_of_notMem) ignored character

end Ignoring

theorem isBlank_toLower (character : Char) :
    isBlank character.toLower = isBlank character :=
  eq_toLower (by decide) character

theorem isBlank_toUpper (character : Char) :
    isBlank character.toUpper = isBlank character :=
  eq_toUpper (by decide) character

theorem isDigit_toLower (character : Char) :
    character.toLower.isDigit = character.isDigit :=
  @eq_toLower Bool _ Char.isDigit (by decide) character

theorem isDecimalDigit_toLower (character : Char) :
    isDecimalDigit character.toLower = isDecimalDigit character :=
  eq_toLower (by decide +kernel) character

theorem lowerCase_toLower (character : Char) :
    lowerCase character.toLower = lowerCase character :=
  eq_toLower (by decide) character

theorem foldCase_toLower (character : Char) :
    foldCase character.toLower = foldCase character :=
  eq_toLower (by decide) character

theorem toLower_toLower (character : Char) :
    character.toLower.toLower = character.toLower :=
  eq_toLower (by decide) character

theorem toLower_toUpper (character : Char) :
    character.toUpper.toLower = character.toLower :=
  eq_toUpper (by decide) character

theorem toUpper_toUpper (character : Char) :
    character.toUpper.toUpper = character.toUpper :=
  eq_toUpper (by decide) character

/-! ## Texts in lower case -/

section Texts

variable (text : List Char)

theorem map_map_toLower {α : Type} {change : Char → α}
    (ignores : ∀ character, change character.toLower = change character) :
    (text.map Char.toLower).map change = text.map change := by
  rw [List.map_map]
  exact List.map_congr_left fun character _ => ignores character

theorem all_map_toLower {inClass : Char → Bool}
    (ignores : ∀ character, inClass character.toLower = inClass character) :
    (text.map Char.toLower).all inClass = text.all inClass := by
  rw [List.all_map]
  exact congrArg text.all (funext ignores)

theorem trimStart_map {change : Char → Char}
    (ignores : ∀ character, isBlank (change character) = isBlank character) :
    trimStart (text.map change) = (trimStart text).map change := by
  rw [trimStart, List.dropWhile_map, trimStart]
  congr 2
  exact funext ignores

theorem trim_map {change : Char → Char}
    (ignores : ∀ character, isBlank (change character) = isBlank character) :
    trim (text.map change) = (trim text).map change := by
  simp only [trim, trimStart_map _ ignores, ← List.map_reverse]

theorem leadingWord_map_toLower :
    leadingWord (text.map Char.toLower) =
      ((leadingWord text).1.map Char.toLower,
        (leadingWord text).2.map (List.map Char.toLower)) := by
  induction text with
  | nil => rfl
  | cons character rest ih =>
      simp only [List.map_cons, leadingWord, ih, isBlank_toLower, consWord,
        List.isEmpty_map]
      split
      · split <;> rfl
      · rfl

theorem words_map_toLower :
    words (text.map Char.toLower) =
      (words text).map (List.map Char.toLower) := by
  simp only [words, leadingWord_map_toLower, consWord, List.isEmpty_map]
  split <;> rfl

theorem lowersTo_map_toLower (keyword : String) :
    lowersTo (text.map Char.toLower) keyword = lowersTo text keyword := by
  rw [lowersTo, map_map_toLower text lowerCase_toLower, lowersTo]

theorem foldsTo_map_toLower (keyword : String) :
    foldsTo (text.map Char.toLower) keyword = foldsTo text keyword := by
  rw [foldsTo, map_map_toLower text foldCase_toLower, foldsTo]

theorem equalsIgnoringCase_map_toLower (keyword : String) :
    equalsIgnoringCase (text.map Char.toLower) keyword =
      equalsIgnoringCase text keyword := by
  rw [equalsIgnoringCase, map_map_toLower text toLower_toLower,
    equalsIgnoringCase]

theorem isDecimalRun_map_toLower :
    isDecimalRun (text.map Char.toLower) = isDecimalRun text := by
  rw [isDecimalRun, List.isEmpty_map,
    all_map_toLower text isDecimalDigit_toLower, isDecimalRun]

end Texts

theorem map_eq_self {text : List Char} {change : Char → Char}
    (fixed : ∀ character ∈ text, change character = character) :
    text.map change = text :=
  (List.map_congr_left fixed).trans (List.map_id' text)

theorem map_toLower_of_isDecimalRun {digits : List Char}
    (run : isDecimalRun digits = true) :
    digits.map Char.toLower = digits := by
  simp only [isDecimalRun, Bool.and_eq_true, List.all_eq_true] at run
  exact map_eq_self fun digit member =>
    toLower_of_isDecimalDigit (run.2 digit member)

end Text

/-! ## Names and distances -/

section Names

variable (text : List Char)

theorem TimeExpression.dayName?_map_toLower :
    dayName? (text.map Char.toLower) = dayName? text := by
  simp only [dayName?, Text.lowersTo_map_toLower]

theorem Weekday.ofName?_map_toLower :
    ofName? (text.map Char.toLower) = ofName? text := by
  simp only [ofName?, Text.equalsIgnoringCase_map_toLower]

theorem TimeUnit.ofName?_map_toLower :
    ofName? (text.map Char.toLower) = ofName? text := by
  simp only [ofName?, Text.foldsTo_map_toLower]

theorem TimeDirection.ofWords?_map_toLower (words : List (List Char)) :
    ofWords? (words.map (List.map Char.toLower)) = ofWords? words := by
  rcases words with _ | ⟨first, _ | ⟨second, _ | ⟨third, others⟩⟩⟩
  · rfl
  · simp only [List.map_cons, List.map_nil, ofWords?, Text.foldsTo_map_toLower]
  · simp only [List.map_cons, List.map_nil, ofWords?, Text.foldsTo_map_toLower]
  · rfl

theorem WrittenDistance.ofText?_map_toLower :
    ofText? (text.map Char.toLower) = ofText? text := by
  simp only [ofText?, Text.words_map_toLower]
  rcases Text.words text with _ | ⟨digits, _ | ⟨unit, direction⟩⟩
  · rfl
  · rfl
  · simp only [List.map_cons, Text.isDecimalRun_map_toLower,
      TimeUnit.ofName?_map_toLower, TimeDirection.ofWords?_map_toLower]
    split
    · next run => rw [Text.map_toLower_of_isDecimalRun run]
    · rfl

theorem TimeExpression.distance?_map_toLower :
    distance? (text.map Char.toLower) = distance? text := by
  rw [distance?, WrittenDistance.ofText?_map_toLower, distance?]

end Names

/-! ## Layouts -/

namespace Layout

/-- The layouts with the letter `T` between the date and the time. -/
def localTimes : List Layout :=
  [yearFirst '-' ++ .mark 'T' :: hourMinuteSecond,
    yearFirst '-' ++ .mark 'T' :: hourMinute]

theorem isSeparator_of_isAlpha {letter : Char}
    (isAlpha : letter.isAlpha = true) :
    IsSeparator letter := by
  have bounds : 65 ≤ letter.toNat ∧ letter.toNat ≤ 122 := by
    change (decide (letter.val ≥ 65 ∧ letter.val ≤ 90) ||
      decide (letter.val ≥ 97) && decide (letter.val ≤ 122)) = true at isAlpha
    simp only [Bool.or_eq_true, Bool.and_eq_true, decide_eq_true_eq, ge_iff_le,
      UInt32.le_iff_toNat_le] at isAlpha
    change 65 ≤ letter.toNat ∧ letter.toNat ≤ 90 ∨
      97 ≤ letter.toNat ∧ letter.toNat ≤ 122 at isAlpha
    omega
  constructor
  · simp [Text.isBlank]
    omega
  · rw [Bool.eq_false_iff, ne_eq, Char.isDigit_iff_toNat]
    change ¬ (48 ≤ letter.toNat ∧ letter.toNat ≤ 57)
    omega
  · rintro rfl
    cases isAlpha
  · rintro rfl
    cases isAlpha

/-- Of the layouts, only those of local times have a letter, and that is `T`. -/
theorem eq_and_mem_localTimes_of_mark {layout : Layout} (listed : layout ∈ all)
    {letter : Char}
    (isAlpha : letter.isAlpha = true) (marked : .mark letter ∈ layout) :
    letter = 'T' ∧ layout ∈ localTimes := by
  have marks : (all.all fun layout => List.all layout fun
      | .mark character =>
          !character.isAlpha || character == 'T' && localTimes.contains layout
      | _ => true) = true := by decide
  have fits :=
    List.all_eq_true.mp (List.all_eq_true.mp marks layout listed) _ marked
  simpa [isAlpha] using fits

theorem mem_all_of_mem_localTimes {layout : Layout}
    (listed : layout ∈ localTimes) :
    layout ∈ all := by
  have included :
      (localTimes.all fun layout => all.contains layout) = true := by decide
  exact List.contains_iff_mem.mp (List.all_eq_true.mp included layout listed)

variable {layout : Layout} {text : List Char}

/-- A layout reads no letters but those that it has itself. -/
theorem local_of_letter (listed : layout ∈ all)
    (accepted : (layout.instant? text).isSome = true)
    {letter : Char} (inside : letter ∈ text) (isAlpha : letter.isAlpha = true) :
    letter = 'T' ∧ layout ∈ localTimes := by
  obtain ⟨reading, taken⟩ := exists_read_of_instant? accepted
  have counted := count_of_read (isSeparator_of_isAlpha isAlpha) taken
  have marked : .mark letter ∈ layout := by
    rw [← List.count_pos_iff, ← counted]
    exact List.count_pos_iff.mpr inside
  exact eq_and_mem_localTimes_of_mark listed isAlpha marked

theorem mark_mem_of_localTime {mark : Char}
    (marked :
      (localTimes.all fun layout => List.contains layout (.mark mark)) = true)
    (isLocal : layout ∈ localTimes)
    (accepted : (layout.instant? text).isSome = true) :
    mark ∈ text := by
  obtain ⟨reading, taken⟩ := exists_read_of_instant? accepted
  have listed :=
    List.contains_iff_mem.mp (List.all_eq_true.mp marked layout isLocal)
  exact List.count_pos_iff.mp
    ((List.count_pos_iff.mpr listed).trans_le (count_le_of_read taken))

/-- Local times are in upper case. -/
theorem map_toUpper_of_instant? (listed : layout ∈ all)
    (accepted : (layout.instant? text).isSome = true) :
    text.map Char.toUpper = text := by
  apply Text.map_eq_self
  intro character member
  by_cases isAlpha : character.isAlpha = true
  · rw [(local_of_letter listed accepted member isAlpha).1]
    rfl
  · refine Text.toUpper_of_notMem fun letter => isAlpha ?_
    exact Text.isAlpha_of_mem (by decide) letter

/--
A layout without letters does not see the case of a text.  A text with letters
is read in neither case.
-/
theorem instant?_map_toLower (listed : layout ∈ all)
    (plain : layout ∉ localTimes)
    (text : List Char) :
    layout.instant? (text.map Char.toLower) = layout.instant? text := by
  by_cases letters : ∃ letter ∈ text, letter.isAlpha = true
  · obtain ⟨letter, inside, isAlpha⟩ := letters
    have unread {other : List Char} {letter : Char} (inside : letter ∈ other)
        (isAlpha : letter.isAlpha = true) : layout.instant? other = none := by
      by_contra read
      have accepted := Option.isSome_iff_ne_none.mpr read
      exact plain (local_of_letter listed accepted inside isAlpha).2
    have lower : letter.toLower.isAlpha = true :=
      (@Text.eq_toLower Bool _ Char.isAlpha (by decide) letter).trans isAlpha
    rw [unread inside isAlpha, unread (List.mem_map_of_mem inside) lower]
  · rw [Text.map_eq_self]
    intro character member
    refine Text.toLower_of_notMem fun letter => letters ⟨character, member, ?_⟩
    exact Text.isAlpha_of_mem (by decide) letter

theorem instant?_map_toLower_eq_none (isLocal : layout ∈ localTimes)
    (text : List Char) :
    layout.instant? (text.map Char.toLower) = none := by
  by_contra read
  have inside : 'T' ∈ text.map Char.toLower :=
    mark_mem_of_localTime (by decide) isLocal
      (Option.isSome_iff_ne_none.mpr read)
  obtain ⟨letter, -, same⟩ := List.mem_map.mp inside
  have notCapital := Text.toLower_notMem_capitals letter
  rw [same] at notCapital
  exact notCapital (by decide)

end Layout

/-! ## Timestamps -/

namespace Timestamp

theorem digits?_map_toLower (count : Nat) (text : List Char) :
    digits? count (text.map Char.toLower) =
      (digits? count text).map (Prod.map id (List.map Char.toLower)) := by
  simp only [digits?, ← List.map_take, ← List.map_drop, List.length_map,
    Text.all_map_toLower _ Text.isDigit_toLower]
  split
  · next run =>
      simp only [Bool.and_eq_true, List.all_eq_true] at run
      rw [Text.map_eq_self fun digit member =>
        Text.toLower_of_isDigit (run.2 digit member)]
      rfl
  · rfl

/-- Characters are allowed in both cases or not at all. -/
def IgnoresCase (allowed : List Char) : Prop :=
  ∀ character : Char,
    allowed.contains character.toLower = allowed.contains character

theorem mark?_map_toLower {allowed : List Char} (ignores : IgnoresCase allowed)
    (text : List Char) :
    mark? allowed (text.map Char.toLower) =
      (mark? allowed text).map (List.map Char.toLower) := by
  cases text with
  | nil => rfl
  | cons character rest =>
      simp only [List.map_cons, mark?, ignores character]
      split <;> rfl

theorem triple?_map_toLower (width : Nat) {mark : Char}
    (ignores : IgnoresCase [mark]) (text : List Char) :
    triple? width mark (text.map Char.toLower) =
      (triple? width mark text).map (Prod.map id (List.map Char.toLower)) := by
  simp only [triple?, Option.bind_eq_bind, Option.pure_def, digits?_map_toLower,
    mark?_map_toLower ignores, Option.bind_map, Option.map_bind,
    Function.comp_def, Prod.map_fst, Prod.map_snd, id_eq, Option.map_some,
    Prod.map_apply]

theorem nanoseconds?_map_toLower (text : List Char) :
    nanoseconds? (text.map Char.toLower) =
      (nanoseconds? text).map (Prod.map id (List.map Char.toLower)) := by
  cases text with
  | nil => rfl
  | cons character rest =>
      have pointed : (character.toLower == '.') = (character == '.') :=
        @Text.eq_toLower Bool _ (· == '.') (by decide) character
      by_cases point : character = '.'
      · subst point
        have isDigit : Char.isDigit ∘ Char.toLower = Char.isDigit :=
          funext Text.isDigit_toLower
        have digits : (rest.map Char.toLower).takeWhile Char.isDigit =
            rest.takeWhile Char.isDigit := by
          rw [List.takeWhile_map, isDigit]
          exact Text.map_eq_self fun digit member => Text.toLower_of_isDigit
            (List.mem_takeWhile_imp member)
        have remaining : (rest.map Char.toLower).dropWhile Char.isDigit =
            (rest.dropWhile Char.isDigit).map Char.toLower := by
          rw [List.dropWhile_map, isDigit]
        change nanoseconds? ('.' :: rest.map Char.toLower) = _
        simp only [nanoseconds?, digits, remaining]
        split <;> rfl
      · have other : character.toLower ≠ '.' := by
          rw [← beq_eq_false_iff_ne, pointed]
          exact beq_eq_false_iff_ne.mpr point
        rw [List.map_cons, nanoseconds?, nanoseconds?]
        · rfl
        · exact fun _ same => point (List.head_eq_of_cons_eq same)
        · exact fun _ same => other (List.head_eq_of_cons_eq same)

theorem eq_or_eq_of_toLower {letter : Char} (lower : letter.toLower = 'z') :
    letter = 'Z' ∨ letter = 'z' := by
  by_cases capital : letter ∈ Text.capitals
  · have only : (Text.capitals.all fun other =>
        other.toLower != 'z' || other == 'Z') = true := by
      decide
    have fits := List.all_eq_true.mp only letter capital
    exact Or.inl (by simpa [lower] using fits)
  · rw [Text.toLower_of_notMem capital] at lower
    exact Or.inr lower

theorem isZone_map_toLower (text : List Char) :
    isZone (text.map Char.toLower) = isZone text := by
  by_cases letter : text = ['Z'] ∨ text = ['z']
  · rcases letter with rfl | rfl
    · rfl
    · rfl
  · have lower : text.map Char.toLower ≠ ['z'] := by
      intro same
      obtain ⟨character, rfl, toLower⟩ := List.map_eq_singleton_iff.mp same
      exact letter (by simpa using eq_or_eq_of_toLower toLower)
    have upper : text.map Char.toLower ≠ ['Z'] := by
      intro same
      obtain ⟨character, rfl, toLower⟩ := List.map_eq_singleton_iff.mp same
      have notCapital := Text.toLower_notMem_capitals character
      rw [toLower] at notCapital
      exact notCapital (by decide)
    have signs : IgnoresCase ['+', '-', '\u2212'] := Text.eq_toLower (by decide)
    have colon : IgnoresCase [':'] := Text.eq_toLower (by decide)
    rw [isZone, isZone]
    · simp only [Option.bind_eq_bind, mark?_map_toLower signs,
        mark?_map_toLower colon, digits?_map_toLower, Option.bind_map,
        Function.comp_def, Prod.map_fst, Prod.map_snd, id_eq, List.isEmpty_map]
    · exact fun same => letter (.inl same)
    · exact fun same => letter (.inr same)
    · exact upper
    · exact lower

theorem instant?_map_toLower (text : List Char) :
    instant? (text.map Char.toLower) = instant? text := by
  have hyphen : IgnoresCase ['-'] := Text.eq_toLower (by decide)
  have colon : IgnoresCase [':'] := Text.eq_toLower (by decide)
  have between : IgnoresCase ['T', 't', ' '] := Text.eq_toLower (by decide)
  simp only [instant?, Option.bind_eq_bind, triple?_map_toLower 4 hyphen,
    triple?_map_toLower 2 colon, mark?_map_toLower between,
    nanoseconds?_map_toLower, isZone_map_toLower, Option.bind_map,
    Function.comp_def, Prod.map_fst, Prod.map_snd, id_eq]

end Timestamp

/-! ## Time expressions -/

namespace TimeExpression

/-- A date and a time with the letter `T` between them, and without a zone. -/
def IsLocalTime (text : List Char) : Prop :=
  ∃ layout ∈ Layout.localTimes, (layout.instant? text).isSome = true

theorem written?_map_toLower {text : List Char}
    (other : ¬ IsLocalTime (text.map Char.toUpper)) :
    written? (text.map Char.toLower) = written? text := by
  have same : ∀ layout ∈ Layout.all,
      layout.instant? (text.map Char.toLower) = layout.instant? text := by
    intro layout listed
    by_cases isLocal : layout ∈ Layout.localTimes
    · rw [Layout.instant?_map_toLower_eq_none isLocal]
      by_contra read
      have accepted := Option.isSome_iff_ne_none.mpr (Ne.symm read)
      refine other ⟨layout, isLocal, ?_⟩
      rwa [Layout.map_toUpper_of_instant? listed accepted]
    · exact Layout.instant?_map_toLower listed isLocal text
  rw [written?, ← List.head?_filterMap, List.filterMap_congr same,
    List.head?_filterMap, Timestamp.instant?_map_toLower, written?]

theorem isSome_written? {text : List Char} (isLocal : IsLocalTime text) :
    (written? text).isSome = true := by
  obtain ⟨layout, listed, accepted⟩ := isLocal
  have inAll : layout ∈ Layout.all := Layout.mem_all_of_mem_localTimes listed
  rw [WrittenForm.written?_eq_findSome?, List.findSome?_isSome_iff]
  exact ⟨.layout layout,
    WrittenForm.mem_all_iff.mpr (.inl ⟨layout, inAll, rfl⟩), accepted⟩

/-- In lower case, a local time is no date any more. -/
theorem written?_map_toLower_eq_none {text : List Char}
    (isLocal : IsLocalTime text) :
    written? (text.map Char.toLower) = none := by
  obtain ⟨localTime, listedLocal, accepted⟩ := isLocal
  have inAll := Layout.mem_all_of_mem_localTimes listedLocal
  have capital : 'T' ∈ text :=
    Layout.mark_mem_of_localTime (by decide) listedLocal accepted
  have layouts :
      ∀ layout ∈ Layout.all,
        layout.instant? (text.map Char.toLower) = none := by
    intro layout listed
    by_cases isLocal : layout ∈ Layout.localTimes
    · exact Layout.instant?_map_toLower_eq_none isLocal text
    · rw [Layout.instant?_map_toLower listed isLocal]
      by_contra read
      have other := Option.isSome_iff_ne_none.mpr read
      exact isLocal (Layout.local_of_letter listed other capital rfl).2
  have timestamp : Timestamp.instant? (text.map Char.toLower) = none := by
    rw [Timestamp.instant?_map_toLower, ← Option.not_isSome_iff_eq_none]
    exact WrittenForm.not_timestamp_of_layout inAll accepted
  rw [written?, List.findSome?_eq_none_iff.mpr layouts, timestamp]

theorem toList_toLower (text : String) :
    text.toLower.toList = text.toList.map Char.toLower :=
  String.toList_map

theorem toList_toUpper (text : String) :
    text.toUpper.toList = text.toList.map Char.toUpper :=
  String.toList_map

theorem trim_toLower (text : String) :
    Text.trim text.toLower.toList =
      (Text.trim text.toList).map Char.toLower := by
  rw [toList_toLower, Text.trim_map _ Text.isBlank_toLower]

theorem trim_toUpper (text : String) :
    Text.trim text.toUpper.toList =
      (Text.trim text.toList).map Char.toUpper := by
  rw [toList_toUpper, Text.trim_map _ Text.isBlank_toUpper]

/-- Apart from local times, a text is read in lower case as it stands. -/
theorem ofText?_toLower {text : String}
    (other : ¬ IsLocalTime (Text.trim text.toUpper.toList)) :
    ofText? text.toLower = ofText? text := by
  rw [trim_toUpper] at other
  simp only [ofText?, trim_toLower, Text.all_map_toLower _ Text.isDigit_toLower,
    dayName?_map_toLower, Weekday.ofName?_map_toLower, distance?_map_toLower,
    written?_map_toLower other]

theorem toLower_toUpper (text : String) :
    text.toUpper.toLower = text.toLower := by
  rw [← String.toList_inj, toList_toLower, toList_toUpper, toList_toLower,
    List.map_map]
  exact List.map_congr_left fun character _ => Text.toLower_toUpper character

theorem toUpper_toUpper (text : String) :
    text.toUpper.toUpper = text.toUpper := by
  rw [← String.toList_inj, toList_toUpper, toList_toUpper, List.map_map]
  exact List.map_congr_left fun character _ => Text.toUpper_toUpper character

theorem ofText?_toUpper {text : String}
    (other : ¬ IsLocalTime (Text.trim text.toUpper.toList)) :
    ofText? text.toUpper = ofText? text := by
  have upper := @ofText?_toLower text.toUpper (by rwa [toUpper_toUpper])
  rw [← upper, toLower_toUpper, ofText?_toLower other]

section LocalTime

variable {text : String} (isLocal : IsLocalTime (Text.trim text.toUpper.toList))
include isLocal

theorem hyphen_mem_of_isLocalTime : '-' ∈ Text.trim text.toUpper.toList := by
  obtain ⟨layout, listed, accepted⟩ := isLocal
  exact Layout.mark_mem_of_localTime (by decide) listed accepted

/-- A local time is no distance. -/
theorem distance?_of_isLocalTime :
    distance? (Text.trim text.toUpper.toList) = none := by
  unfold distance?
  split
  · next written found =>
      have isDate := isSome_written? isLocal
      rw [WrittenDistance.written?_eq_none found] at isDate
      cases isDate
  · rfl

theorem exists_ofText?_toUpper :
    ∃ instant, ofText? text.toUpper = some (.literal instant) := by
  obtain ⟨instant, found⟩ :=
    Option.isSome_iff_exists.mp (isSome_written? isLocal)
  refine ⟨instant, ?_⟩
  rw [ofText?_of_hyphen (hyphen_mem_of_isLocalTime isLocal)
    (distance?_of_isLocalTime isLocal), found, Option.map_some]

theorem ofText?_toLower_eq_none : ofText? text.toLower = none := by
  have lowered : Text.trim text.toLower.toList =
      (Text.trim text.toUpper.toList).map Char.toLower := by
    rw [← trim_toLower, toLower_toUpper]
  have hyphen : '-' ∈ Text.trim text.toLower.toList := by
    rw [lowered]
    exact List.mem_map.mpr ⟨'-', hyphen_mem_of_isLocalTime isLocal, rfl⟩
  have apart : distance? (Text.trim text.toLower.toList) = none := by
    rw [lowered, distance?_map_toLower, distance?_of_isLocalTime isLocal]
  rw [ofText?_of_hyphen hyphen apart, lowered,
    written?_map_toLower_eq_none isLocal, Option.map_none]

end LocalTime

theorem ofText?_append_blanks {lead tail : String}
    (leadBlank : ∀ blank ∈ lead.toList, Text.isBlank blank = true)
    (tailBlank : ∀ blank ∈ tail.toList, Text.isBlank blank = true)
    (text : String) :
    ofText? (lead ++ text ++ tail) = ofText? text := by
  simp only [ofText?, String.toList_append,
    Text.trim_append_blanks leadBlank tailBlank]

/--
Blanks around a text never change the time that it writes, whatever times are
relative to.

The case of its letters changes it exactly if the text in upper case is a date
and a time with the letter `T` between them and without a zone.  It is then read
in upper case, and is no time in lower case.
-/
theorem case_matters_iff_local_time (reference : Instant) (text : String) :
    (∀ lead tail : String, (∀ blank ∈ lead.toList, Text.isBlank blank = true) →
      (∀ blank ∈ tail.toList, Text.isBlank blank = true) →
        read reference (lead ++ text ++ tail) = read reference text) ∧
    ((read reference text.toUpper = read reference text ∧
        read reference text.toLower = read reference text) ↔
      ¬ IsLocalTime (Text.trim text.toUpper.toList)) ∧
    (IsLocalTime (Text.trim text.toUpper.toList) →
      (∃ instant, read reference text.toUpper = .ok (some instant)) ∧
        read reference text.toLower = .ok none) := by
  have exception (isLocal : IsLocalTime (Text.trim text.toUpper.toList)) :
      (∃ instant, read reference text.toUpper = .ok (some instant)) ∧
        read reference text.toLower = .ok none := by
    obtain ⟨instant, upper⟩ := exists_ofText?_toUpper isLocal
    rw [read, upper, read, ofText?_toLower_eq_none isLocal]
    exact ⟨⟨instant, rfl⟩, rfl⟩
  refine ⟨fun lead tail leadBlank tailBlank => ?_, ⟨?_, fun other => ⟨?_, ?_⟩⟩,
    exception⟩
  · rw [read, ofText?_append_blanks leadBlank tailBlank, read]
  · rintro ⟨upper, lower⟩ isLocal
    obtain ⟨⟨instant, found⟩, none⟩ := exception isLocal
    rw [upper, ← lower, none] at found
    cases found
  · rw [read, ofText?_toUpper other, read]
  · rw [read, ofText?_toLower other, read]

/-- A local time with a small letter is read in upper case only. -/
theorem case_matters_iff_local_time_small_letter :
    IsLocalTime (Text.trim "2023-12-25t08:30".toUpper.toList) ∧
      read (.midnight ⊥) "2023-12-25t08:30".toLower = .ok none ∧
      ¬ (read (.midnight ⊥) "2023-12-25t08:30".toUpper =
        read (.midnight ⊥) "2023-12-25t08:30" ∧
        read (.midnight ⊥) "2023-12-25t08:30".toLower =
          read (.midnight ⊥) "2023-12-25t08:30") ∧
      read (.midnight ⊥) ("\n" ++ "2023-12-25T08:30" ++ "\u2003\t") =
        read (.midnight ⊥) "2023-12-25T08:30" := by
  have cased := case_matters_iff_local_time (.midnight ⊥) "2023-12-25t08:30"
  have isLocal : IsLocalTime (Text.trim "2023-12-25t08:30".toUpper.toList) := by
    rw [trim_toUpper]
    exact ⟨Layout.yearFirst '-' ++ .mark 'T' :: Layout.hourMinute, by decide,
      by decide⟩
  refine ⟨isLocal, (cased.2.2 isLocal).2, fun same => cased.2.1.mp same isLocal,
    ?_⟩
  exact (case_matters_iff_local_time (.midnight ⊥) "2023-12-25T08:30").1 "\n"
    "\u2003\t"
    (List.all_eq_true.mp (by decide)) (List.all_eq_true.mp (by decide))

end TimeExpression

end SearchPhrase
