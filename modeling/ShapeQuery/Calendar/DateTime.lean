/-
This file reads the lexical forms of `xsd:date` and `xsd:dateTime`. The text is read from the
left, and the first fault met is the answer; the checks that need the whole value (the day of the
month, the range of the timeline) come after the timezone and before the check that nothing is
left over.
-/
import ShapeQuery.Calendar.Fault
import ShapeQuery.Number.Numeral

namespace ShapeQuery.Calendar

open Number (digitsValue twoTo tenTo)

/-- A date in the proleptic Gregorian calendar, with an optional timezone in minutes. -/
structure Date where
  year : Int
  month : Nat
  day : Nat
  zone : Option Int
deriving DecidableEq

/-- A time of day. Fractions of a second are counted in units of `10 ^ -18` seconds. -/
structure Time where
  hour : Nat
  minute : Nat
  second : Nat
  fraction : Nat
deriving DecidableEq

/-! ### Fragments

A fragment is read from the front of a text; the characters after it are returned with its value.
-/

/-- Reads one given character. -/
def expect (expected : Char) (fault : Fault) : List Char → Except Fault (List Char)
  | [] => .error fault
  | character :: rest => if character = expected then .ok rest else .error fault

/-- Reads a run of exactly two digits, however long the run is, within bounds. -/
def twoDigits (low high : Nat) (digitsFault rangeFault : Fault) (characters : List Char) :
    Except Fault (Nat × List Char) :=
  let digits := characters.takeWhile Char.isDigit
  let value := digitsValue digits
  if digits.length ≠ 2 then .error digitsFault
  else if value < low ∨ high < value then .error rangeFault
  else .ok (value, characters.dropWhile Char.isDigit)

/-- Reads a year of at least four digits with an optional minus sign. -/
def year (characters : List Char) : Except Fault (Int × List Char) :=
  let (negative, body) := match characters with
    | '-' :: rest => (true, rest)
    | _ => (false, characters)
  let digits := body.takeWhile Char.isDigit
  let value := digitsValue digits
  if digits.length < 4 then .error .yearDigits
  else if 4 < digits.length ∧ digits.head? = some '0' then .error .yearLeadingZero
  else if twoTo 63 ≤ value then .error .yearOverflow
  else .ok (if negative then -value else value, body.dropWhile Char.isDigit)

/-- The digits after a point, without trailing zeros. -/
def significantFraction (digits : List Char) : List Char :=
  (digits.reverse.dropWhile (· = '0')).reverse

/-- The number of decimal places that a fraction of a second may have. -/
def fractionPlaces : Nat := 18

/-- Reads seconds with an optional fraction; returns whole seconds and the fraction. -/
def seconds (characters : List Char) : Except Fault ((Nat × Nat) × List Char) :=
  let whole := characters.takeWhile Char.isDigit
  let afterWhole := characters.dropWhile Char.isDigit
  let (dotted, digits, rest) := match afterWhole with
    | '.' :: rest => (true, rest.takeWhile Char.isDigit, rest.dropWhile Char.isDigit)
    | _ => (false, [], afterWhole)
  let fraction := significantFraction digits
  if whole.length ≠ 2 then .error .secondDigits
  else if fractionPlaces < fraction.length then .error .secondPrecision
  else if 60 ≤ digitsValue whole then .error .secondRange
  else if dotted && digits.isEmpty then .error .secondDot
  else
    .ok ((digitsValue whole, digitsValue fraction * tenTo (fractionPlaces - fraction.length)), rest)

/-- Reads a timezone: the letter `Z`, or hours and minutes with an optional sign. -/
def zone (characters : List Char) : Except Fault (Int × List Char) :=
  match characters with
  | 'Z' :: rest => .ok (0, rest)
  | _ => do
    let (sign, body) : Int × List Char := match characters with
      | '-' :: rest => (-1, rest)
      | '+' :: rest => (1, rest)
      | _ => (1, characters)
    let (hours, rest) ← twoDigits 0 99 .zoneHourDigits .zoneHourRange body
    let rest ← expect ':' .zoneSeparator rest
    let (minutes, rest) ← twoDigits 0 59 .minuteDigits .minuteRange rest
    if 13 < hours ∧ ¬(hours = 14 ∧ minutes = 0) then .error .zoneHourRange
    else .ok (sign * (hours * 60 + minutes), rest)

/-- Reads a timezone unless the text ends here. -/
def optionalZone (characters : List Char) : Except Fault (Option Int × List Char) :=
  if characters.isEmpty then .ok (none, [])
  else (zone characters).map fun (offset, rest) => (some offset, rest)

/-- Reads year, month and day. -/
def yearMonthDay (characters : List Char) : Except Fault ((Int × Nat × Nat) × List Char) := do
  let (year, rest) ← year characters
  let rest ← expect '-' .monthSeparator rest
  let (month, rest) ← twoDigits 1 12 .monthDigits .monthRange rest
  let rest ← expect '-' .daySeparator rest
  let (day, rest) ← twoDigits 1 31 .dayDigits .dayRange rest
  .ok ((year, month, day), rest)

/-- Reads a time of day. Midnight at the end of a day is hour 24. -/
def timeOfDay (characters : List Char) : Except Fault (Time × List Char) := do
  let (hour, rest) ← twoDigits 0 24 .hourDigits .hourRange characters
  let rest ← expect ':' .minuteSeparator rest
  let (minute, rest) ← twoDigits 0 59 .minuteDigits .minuteRange rest
  let rest ← expect ':' .secondSeparator rest
  let ((second, fraction), rest) ← seconds rest
  if hour = 24 ∧ ¬(minute = 0 ∧ second = 0 ∧ fraction = 0) then .error .afterMidnight
  else .ok (⟨hour, minute, second, fraction⟩, rest)

/-! ### The calendar -/

/-- Whether a year has a leap day. -/
def isLeapYear (year : Int) : Bool :=
  year % 4 = 0 && (year % 100 ≠ 0 || year % 400 = 0)

/-- The number of days of a month. -/
def daysInMonth (year : Int) (month : Nat) : Nat :=
  match month with
  | 2 => if isLeapYear year then 29 else 28
  | 4 | 6 | 9 | 11 => 30
  | _ => 31

/-- The seconds from the start of year 1 to a point in time. -/
def secondsOnTimeline (date : Date) (hour minute second : Nat) : Int :=
  let previous := date.year - 1
  let monthDays := ((List.range date.month).drop 1).map (daysInMonth date.year)
  let earlierDays := monthDays.foldl Nat.add 0
  31536000 * previous + 86400 * (previous / 400 - previous / 100 + previous / 4)
    + 86400 * earlierDays + 86400 * (date.day - 1) + 3600 * hour
    + 60 * (minute - date.zone.getD 0) + second

/-- Whether a number of units of `10 ^ -18` seconds fits into 128 bits. -/
def isRepresentable (units : Int) : Bool :=
  -(twoTo 127) ≤ units && units < twoTo 127

/-- Checks the day of the month and the range of the timeline. -/
def check (date : Date) (time : Time) : Except Fault Unit :=
  let minutes := secondsOnTimeline date time.hour time.minute 0 * tenTo fractionPlaces
  let units := secondsOnTimeline date time.hour time.minute time.second * tenTo fractionPlaces
    + time.fraction
  if daysInMonth date.year date.month < date.day then .error (.dayOfMonth date.day date.month)
  else if isRepresentable minutes && isRepresentable units then .ok ()
  else .error .overflow

/-- Fails if characters are left over. -/
def finish {α : Type} (value : α) (rest : List Char) : Except Fault α :=
  if rest.isEmpty then .ok value else .error .suffix

/-- Reads the lexical form of a date. -/
def readDate (text : String) : Except Fault Date := do
  let ((year, month, day), rest) ← yearMonthDay text.toList
  let (zone, rest) ← optionalZone rest
  let date : Date := ⟨year, month, day, zone⟩
  check date ⟨0, 0, 0, 0⟩
  finish date rest

/-- Reads the lexical form of a datetime. -/
def readDateTime (text : String) : Except Fault (Date × Time) := do
  let ((year, month, day), rest) ← yearMonthDay text.toList
  let rest ← expect 'T' .timeSeparator rest
  let (time, rest) ← timeOfDay rest
  let (zone, rest) ← optionalZone rest
  let date : Date := ⟨year, month, day, zone⟩
  check date time
  finish (date, time) rest

end ShapeQuery.Calendar
