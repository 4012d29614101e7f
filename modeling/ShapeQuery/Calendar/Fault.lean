/-
This file names the reasons for which a text is not a date or a datetime, and words them.
-/

namespace ShapeQuery.Calendar

/-- Why a text is not a date or a datetime. -/
inductive Fault where
  | yearDigits
  | yearLeadingZero
  | yearOverflow
  | monthSeparator
  | monthDigits
  | monthRange
  | daySeparator
  | dayDigits
  | dayRange
  | timeSeparator
  | hourDigits
  | hourRange
  | minuteSeparator
  | minuteDigits
  | minuteRange
  | secondSeparator
  | secondDigits
  | secondPrecision
  | secondRange
  | secondDot
  | afterMidnight
  | zoneHourDigits
  | zoneSeparator
  | zoneHourRange
  | dayOfMonth (day month : Nat)
  | overflow
  | suffix
deriving DecidableEq

/-- The wording of a fault. -/
def Fault.message : Fault → String
  | .yearDigits => "The year should be encoded on 4 digits"
  | .yearLeadingZero =>
    "The years value must not start with 0 if it can be encoded in at least 4 digits"
  | .yearOverflow => "Integer overflow"
  | .monthSeparator => "The year and month must be separated by '-'"
  | .monthDigits => "Month must be encoded with two digits"
  | .monthRange => "Month must be between 01 and 12"
  | .daySeparator => "The month and day must be separated by '-'"
  | .dayDigits => "Day must be encoded with two digits"
  | .dayRange => "Day must be between 01 and 31"
  | .timeSeparator => "The date and time must be separated by 'T'"
  | .hourDigits => "Hours must be encoded with two digits"
  | .hourRange => "Hours must be between 00 and 24"
  | .minuteSeparator => "The hours and minutes must be separated by ':'"
  | .minuteDigits => "Minutes must be encoded with two digits"
  | .minuteRange => "Minutes must be between 00 and 59"
  | .secondSeparator => "The minutes and seconds must be separated by ':'"
  | .secondDigits => "Seconds must be encoded with two digits"
  | .secondPrecision => "The second precision is too large"
  | .secondRange => "Seconds must be between 00 and 60"
  | .secondDot => "Seconds are not allowed to end with a dot"
  | .afterMidnight => "Times are not allowed to be after 24:00:00"
  | .zoneHourDigits => "The timezone hours must be encoded with two digits"
  | .zoneSeparator => "The timezone hours and minutes must be separated by ':'"
  | .zoneHourRange => "The timezone hours must be between 00 and 13"
  | .dayOfMonth day month => toString day ++ " is not a valid day of " ++ toString month
  | .overflow => "overflow during xsd:dateTime computation"
  | .suffix => "Unrecognized value suffix"

end ShapeQuery.Calendar
