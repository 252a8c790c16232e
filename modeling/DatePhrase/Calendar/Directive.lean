import DatePhrase.Calendar.Iso

/-! The parts of a date layout: literal characters, numbers read off a date or a time, names, and
fractions of a second. A part that needs a time has no text for a bare date. -/
namespace DatePhrase.Calendar
open Text

inductive Field where
  | year | century | yearOfCentury | isoYear | isoYearOfCentury | quarter | month | day
  | weekFromSunday | weekFromMonday | isoWeek | weekdayFromSunday | weekdayFromMonday | ordinal
  | hour | hourOfHalfDay | minute | second | nanosecond | timestamp
  deriving DecidableEq, Repr

inductive Directive where
  | literal (c : Char)
  | number (field : Field) (fill : Fill)
  | monthName | shortMonthName | weekdayName | shortWeekdayName
  | meridiem | lowerMeridiem
  /-- A point and the fewest exact digits, nothing for a whole second. -/
  | fraction
  /-- Exactly so many digits, cut off, with or without a point. -/
  | digits (point : Bool) (count : Nat)
  deriving DecidableEq, Repr

def monthTitle : Nat → String
  | 1 => "January" | 2 => "February" | 3 => "March" | 4 => "April" | 5 => "May" | 6 => "June"
  | 7 => "July" | 8 => "August" | 9 => "September" | 10 => "October" | 11 => "November"
  | _ => "December"

namespace Date

/-- The week of the year, counted from the first such weekday; days before it are in week 0. -/
def weekFrom (d : Date) (first : Weekday) : Nat :=
  (d.ordinal + 6 - first.daysUntil d.weekday) / 7

/-- The Thursday of the week from Monday to Sunday decides the year and the number of a week. -/
def isoThursday (d : Date) : Int :=
  d.number - (Weekday.monday.daysUntil d.weekday : Nat) + 3

def isoYear (d : Date) : Int := yearOf d.isoThursday

def isoWeek (d : Date) : Nat := dayOfYear d.isoThursday / 7 + 1

end Date

def TimeOfDay.dialHour (t : TimeOfDay) : Nat :=
  if t.hour % 12 = 0 then 12 else t.hour % 12

namespace Field

def ofDate? (fill : Fill) (d : Date) : Field → Option String
  | year => some (writeYear fill d.year)
  | century => some (writeInt fill 2 false (d.year / 100))
  | yearOfCentury => some (writeInt fill 2 false (d.year % 100))
  | isoYear => some (writeYear fill d.isoYear)
  | isoYearOfCentury => some (writeInt fill 2 false (d.isoYear % 100))
  | quarter => some (writeNat .none 1 ((d.month - 1) / 3 + 1))
  | month => some (writeNat fill 2 d.month)
  | day => some (writeNat fill 2 d.day)
  | weekFromSunday => some (writeNat fill 2 (d.weekFrom .sunday))
  | weekFromMonday => some (writeNat fill 2 (d.weekFrom .monday))
  | isoWeek => some (writeNat fill 2 d.isoWeek)
  | weekdayFromSunday => some (writeNat .none 1 d.weekday.index)
  | weekdayFromMonday => some (writeNat .none 1 (Weekday.monday.daysUntil d.weekday + 1))
  | ordinal => some (writeNat fill 3 d.ordinal)
  | _ => none

def ofTime? (fill : Fill) (d : Date) (t : TimeOfDay) : Field → Option String
  | hour => some (writeNat fill 2 t.hour)
  | hourOfHalfDay => some (writeNat fill 2 t.dialHour)
  | minute => some (writeNat fill 2 t.minute)
  | second => some (writeNat fill 2 t.second)
  | nanosecond => some (writeNat fill 9 t.fraction)
  | timestamp => some (writeInt fill 9 false (d.number * secondsPerDay + t.wholeSeconds))
  | _ => none

def write? (fill : Fill) (d : Date) (t : Option TimeOfDay) (field : Field) : Option String :=
  field.ofDate? fill d <|> t.bind (field.ofTime? fill d ·)

end Field

namespace Directive

/-- The text of a part for a date, with a time unless the date is bare. -/
def write? (d : Date) (t : Option TimeOfDay) : Directive → Option String
  | literal c => some (String.ofList [c])
  | number field fill => field.write? fill d t
  | monthName => some (monthTitle d.month)
  | shortMonthName => some (String.ofList ((monthTitle d.month).toList.take 3))
  | weekdayName => some d.weekday.title
  | shortWeekdayName => some d.weekday.shortTitle
  | meridiem => t.map fun t => if t.hour < 12 then "AM" else "PM"
  | lowerMeridiem => t.map fun t => if t.hour < 12 then "am" else "pm"
  | fraction => t.map fun t => writeFraction t.fraction
  | digits point count => t.map fun t =>
    (if point then "." else "") ++ writeNat .zeros count (t.fraction / Nat.pow 10 (9 - count))

/-- Whether a bare date leaves the part without text. -/
def needsTime : Directive → Bool
  | number .hour _ | number .hourOfHalfDay _ | number .minute _ | number .second _
  | number .nanosecond _ | number .timestamp _ => true
  | meridiem | lowerMeridiem | fraction | digits _ _ => true
  | _ => false

theorem write?_time_isSome (d : Date) (t : TimeOfDay) (part : Directive) :
    (part.write? d (some t)).isSome := by
  cases part with
  | number field fill => cases field <;> rfl
  | _ => rfl

theorem write?_bare_isSome (d : Date) (part : Directive) :
    (part.write? d none).isSome = !part.needsTime := by
  cases part with
  | number field fill => cases field <;> rfl
  | _ => rfl

end Directive

end DatePhrase.Calendar
