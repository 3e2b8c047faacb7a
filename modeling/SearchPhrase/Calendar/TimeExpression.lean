import SearchPhrase.Calendar.Layout
import SearchPhrase.Calendar.Timestamp
import SearchPhrase.Calendar.Weekday

/-!
# Time expressions

A value of a temporal field is a time expression: a day relative to today, a day
of the week, a distance such as `3 days ago`, or a written date.  Reading an
expression does not depend on the present; resolving it does, and is relative to
a reference instant.
-/

namespace SearchPhrase

/-- The unit in which a distance in time is counted. -/
inductive TimeUnit where
  | minute
  | hour
  | day
  | week
  | month
  | year
deriving DecidableEq, Repr

namespace TimeUnit

/-- The units from the shortest to the longest. -/
def all : List TimeUnit :=
  [.minute, .hour, .day, .week, .month, .year]

/-- The name of a unit in the singular. -/
def name : TimeUnit → String
  | .minute => "minute"
  | .hour => "hour"
  | .day => "day"
  | .week => "week"
  | .month => "month"
  | .year => "year"

/-- The unit with a given name, in the singular or plural and in any case. -/
def ofName? (word : List Char) : Option TimeUnit :=
  all.find? fun unit =>
    Text.foldsTo word unit.name || Text.foldsTo word (unit.name ++ "s")

end TimeUnit

/-- The direction of a distance in time. -/
inductive TimeDirection where
  | ago
  | fromNow
deriving DecidableEq, Repr

namespace TimeDirection

/-- The direction that the last words of a distance write. -/
def ofWords? : List (List Char) → Option TimeDirection
  | [word] => if Text.foldsTo word "ago" then some .ago else none
  | [first, second] =>
      if Text.foldsTo first "from" && Text.foldsTo second "now" then
        some .fromNow
      else none
  | _ => none

/-- The factor that turns an amount into a move along time. -/
def sign : TimeDirection → Int
  | .ago => -1
  | .fromNow => 1

/-- A number of units as a move forward in time. -/
def signed (direction : TimeDirection) (amount : Int64) :
    Except CalendarFault Int64 :=
  orOverflow (Numeral.int64? (direction.sign * amount.toInt))

end TimeDirection

/-- A distance in time as it is written, with decimal digits of any script. -/
structure WrittenDistance where
  digits : List Char
  unit : TimeUnit
  direction : TimeDirection
deriving DecidableEq, Repr

/-- The distance that a text writes. -/
def WrittenDistance.ofText? (text : List Char) : Option WrittenDistance :=
  match Text.words text with
  | digits :: unit :: direction =>
      if Text.isDecimalRun digits then
        match TimeUnit.ofName? unit, TimeDirection.ofWords? direction with
        | some unit, some direction => some ⟨digits, unit, direction⟩
        | _, _ => none
      else none
  | _ => none

/-- What a value of a temporal field says about time. -/
inductive TimeExpression where
  | today
  | yesterday
  | tomorrow
  | weekday (named : Weekday)
  | distance (amount : Nat) (unit : TimeUnit) (direction : TimeDirection)
  | literal (instant : Instant)
deriving DecidableEq, Repr

namespace TimeExpression

/-- The expression of a keyword for a day. -/
def dayName? (text : List Char) : Option TimeExpression :=
  if Text.lowersTo text "today" then some .today
  else if Text.lowersTo text "yesterday" then some .yesterday
  else if Text.lowersTo text "tomorrow" then some .tomorrow
  else none

/--
The expression of a distance, whose amount must be written in ASCII digits.
-/
def distance? (text : List Char) : Option TimeExpression :=
  match WrittenDistance.ofText? text with
  | some written =>
      (Text.nat? written.digits).map fun amount =>
        .distance amount written.unit written.direction
  | none => none

/--
The instant of a written date: the first layout that fits, or a timestamp.
-/
def written? (text : List Char) : Option Instant :=
  match Layout.all.findSome? fun layout => layout.instant? text with
  | some instant => some instant
  | none => Timestamp.instant? text

/--
The expression that a text writes, apart from blanks at its ends.  A text that
has digits only is a number and no time.
-/
def ofText? (text : String) : Option TimeExpression :=
  let trimmed := Text.trim text.toList
  if trimmed.all Char.isDigit then none
  else
    dayName? trimmed <|> (Weekday.ofName? trimmed).map .weekday <|>
      distance? trimmed <|> (written? trimmed).map .literal

/-! ## Moving a reference -/

/--
The instant a number of units away, where a unit has a given length in seconds.
-/
def moveClock (reference : Instant) (direction : TimeDirection) (length : Int)
    (amount : Int64) : Except CalendarFault (Option Instant) := do
  let moved ← direction.signed amount
  pure ((Duration.ofUnits? length moved).bind reference.addDuration?)

/-- The start of the day a number of days away. -/
def moveDays (reference : Instant) (direction : TimeDirection)
    (amount : Int64) :
    Except CalendarFault (Option Instant) := do
  let moved ← direction.signed amount
  pure
    (((Duration.ofUnits? secondsPerDay moved).bind
      reference.date.addDuration?).map .midnight)

/--
The start of the day a number of months away, if that is an unsigned word.
-/
def moveMonths? (reference : Instant) (direction : TimeDirection)
    (amount : Int64) :
    Option Instant :=
  match Numeral.uint32? amount.toInt with
  | some months =>
      (reference.date.addMonths? (direction.sign * months.toNat)).map .midnight
  | none => none

/--
The instant a distance away.  Minutes and hours move the reference itself, and
the longer units move its day and give the start of the day that is reached.
-/
def move (reference : Instant) (direction : TimeDirection) (amount : Int64) :
    TimeUnit → Except CalendarFault (Option Instant)
  | .minute => moveClock reference direction 60 amount
  | .hour => moveClock reference direction 3600 amount
  | .day => moveDays reference direction amount
  | .week =>
      match Numeral.int64? (amount.toInt * 7) with
      | some days => moveDays reference direction days
      | none => pure none
  | .month => pure (moveMonths? reference direction amount)
  | .year =>
      pure
        ((Numeral.int64? (amount.toInt * 12)).bind
          (moveMonths? reference direction))

/--
The instant of an expression, or none if it lies outside the calendar or its
amount is too large for a word.  A day of the week before the calendar is a
fault.
-/
def resolve (reference : Instant) :
    TimeExpression → Except CalendarFault (Option Instant)
  | .today => .ok (some (.midnight reference.date))
  | .yesterday => .ok ((reference.date.addDays? (-1)).map .midnight)
  | .tomorrow => .ok ((reference.date.addDays? 1).map .midnight)
  | .weekday named =>
      (reference.date.mostRecent named).map fun date => some (.midnight date)
  | .distance amount unit direction =>
      match Numeral.int64? amount with
      | some amount => move reference direction amount unit
      | none => .ok none
  | .literal instant => .ok (some instant)

/-- The instant that a text writes, or none if it writes no instant. -/
def read (reference : Instant) (text : String) :
    Except CalendarFault (Option Instant) :=
  match ofText? text with
  | some expression => expression.resolve reference
  | none => .ok none

/-- Whether a text writes a distance in minutes to the past. -/
def isMinutesAgo (text : String) : Bool :=
  match WrittenDistance.ofText? text.toList with
  | some ⟨_, .minute, .ago⟩ => true
  | _ => false

end TimeExpression

end SearchPhrase
