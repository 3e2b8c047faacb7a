import SearchPhrase.Calendar.Instant
import SearchPhrase.Text.Blank

/-!
# Layouts of dates and times

A date, with or without a time, is read by trying layouts one after the other.
A layout is a list of items: the numbers of a date and time, fixed characters,
and gaps.  A number skips blanks in front of it and takes as many digits as it
may; a gap takes any blanks, also none.
-/

namespace SearchPhrase

/-- A number of a date and time. -/
inductive Layout.Part where
  | year
  | month
  | day
  | hour
  | minute
  | second
deriving DecidableEq, Repr

/-- An item of a layout. -/
inductive Layout.Item where
  | part (part : Layout.Part)
  | mark (character : Char)
  | gap
deriving DecidableEq, Repr

/-- The items of a written date and time, from left to right. -/
abbrev Layout := List Layout.Item

namespace Layout

/-- The numbers of a date and time.  Those that a layout leaves out are zero. -/
structure Reading where
  year : Int := 0
  month : Nat := 0
  day : Nat := 0
  hour : Nat := 0
  minute : Nat := 0
  second : Nat := 0
deriving DecidableEq, Repr

/-- The instant with the numbers of a reading, if there is one. -/
def Reading.instant? (reading : Reading) : Option Instant :=
  match Date.of? reading.year reading.month reading.day with
  | some date =>
      Instant.ofClock? date reading.hour reading.minute reading.second 0
  | none => none

/-- Record a number that is not a year. -/
def Reading.set (reading : Reading) (part : Part) (number : Nat) : Reading :=
  match part with
  | .year => { reading with year := number }
  | .month => { reading with month := number }
  | .day => { reading with day := number }
  | .hour => { reading with hour := number }
  | .minute => { reading with minute := number }
  | .second => { reading with second := number }

/-- Read digits, one at least and at most a given number, and give the rest. -/
def digits? (atMost : Nat) (text : List Char) : Option (Nat × List Char) :=
  let digits := (text.take atMost).takeWhile Char.isDigit
  if digits.isEmpty then none
  else some (Nat.ofDigitChars 10 digits 0, text.drop digits.length)

/-- Read a year: at most four digits, or any number of them after a sign. -/
def year? : List Char → Option (Int × List Char)
  | '-' :: rest =>
      (digits? rest.length rest).map fun (number, rest) => (-number, rest)
  | '+' :: rest =>
      (digits? rest.length rest).map fun (number, rest) => (number, rest)
  | text => (digits? 4 text).map fun (number, rest) => (number, rest)

/-- Read a text by the items of a layout; nothing may remain. -/
def read (reading : Reading) : Layout → List Char → Option Reading
  | [], [] => some reading
  | [], _ :: _ => none
  | .gap :: items, text => read reading items (Text.trimStart text)
  | .mark _ :: _, [] => none
  | .mark expected :: items, character :: rest =>
      if character == expected then read reading items rest else none
  | .part .year :: items, text =>
      match year? (Text.trimStart text) with
      | some (year, rest) => read { reading with year := year } items rest
      | none => none
  | .part part :: items, text =>
      match digits? 2 (Text.trimStart text) with
      | some (number, rest) => read (reading.set part number) items rest
      | none => none

/--
The instant that a text writes in a layout; without a time it is midnight.
-/
def instant? (layout : Layout) (text : List Char) : Option Instant :=
  match read {} layout text with
  | some reading => reading.instant?
  | none => none

/-- Year, month and day with a mark between them. -/
def yearFirst (mark : Char) : Layout :=
  [.part .year, .mark mark, .part .month, .mark mark, .part .day]

/-- Day, month and year with hyphens between them. -/
def dayFirst : Layout :=
  [.part .day, .mark '-', .part .month, .mark '-', .part .year]

/-- The time of a day to the minute. -/
def hourMinute : Layout :=
  [.part .hour, .mark ':', .part .minute]

/-- The time of a day to the second. -/
def hourMinuteSecond : Layout :=
  hourMinute ++ [.mark ':', .part .second]

/-- The layouts in the order in which they are tried. -/
def all : List Layout :=
  [ yearFirst '-' ++ .gap :: hourMinuteSecond,
    yearFirst '-' ++ .gap :: hourMinute,
    yearFirst '-' ++ .mark 'T' :: hourMinuteSecond,
    yearFirst '-' ++ .mark 'T' :: hourMinute,
    yearFirst '/' ++ .gap :: hourMinuteSecond,
    yearFirst '/' ++ .gap :: hourMinute,
    yearFirst '-',
    yearFirst '/',
    dayFirst ]

end Layout

end SearchPhrase
