import DatePhrase.Calendar.Directive
import DatePhrase.Text.Quoted

/-! Date layouts such as `%Y-%m-%d`: a percent sign starts a directive and all else stands for
itself. A layout with an unknown or unfinished directive is no layout at all. -/
namespace DatePhrase.Calendar
open Text

/-- A layout that could not be read, or that asks a bare date for a time. -/
structure InvalidLayout where
  pattern : String
  deriving DecidableEq, Repr

def InvalidLayout.message (e : InvalidLayout) : String :=
  "invalid format pattern: " ++ quoted e.pattern

/-- Parts of a date or time in a row, as the composite directives write them. -/
abbrev Layout := List Directive

namespace Layout

/-- A directive of one number, with its usual fill. -/
def number? : Char → Option (Field × Fill)
  | 'Y' => some (.year, .zeros)
  | 'C' => some (.century, .zeros)
  | 'y' => some (.yearOfCentury, .zeros)
  | 'G' => some (.isoYear, .zeros)
  | 'g' => some (.isoYearOfCentury, .zeros)
  | 'q' => some (.quarter, .none)
  | 'm' => some (.month, .zeros)
  | 'd' => some (.day, .zeros)
  | 'e' => some (.day, .spaces)
  | 'U' => some (.weekFromSunday, .zeros)
  | 'W' => some (.weekFromMonday, .zeros)
  | 'V' => some (.isoWeek, .zeros)
  | 'w' => some (.weekdayFromSunday, .none)
  | 'u' => some (.weekdayFromMonday, .none)
  | 'j' => some (.ordinal, .zeros)
  | 'H' => some (.hour, .zeros)
  | 'k' => some (.hour, .spaces)
  | 'I' => some (.hourOfHalfDay, .zeros)
  | 'l' => some (.hourOfHalfDay, .spaces)
  | 'M' => some (.minute, .zeros)
  | 'S' => some (.second, .zeros)
  | 'f' => some (.nanosecond, .zeros)
  | 's' => some (.timestamp, .none)
  | _ => none

/-- Month, day and year of the century between slashes. -/
def slashed : Layout :=
  [.number .month .zeros, .literal '/', .number .day .zeros, .literal '/',
    .number .yearOfCentury .zeros]

def dashed : Layout :=
  [.number .year .zeros, .literal '-', .number .month .zeros, .literal '-', .number .day .zeros]

def hourMinute : Layout :=
  [.number .hour .zeros, .literal ':', .number .minute .zeros]

def clock : Layout :=
  hourMinute ++ [.literal ':', .number .second .zeros]

def dialClock : Layout :=
  [.number .hourOfHalfDay .zeros, .literal ':', .number .minute .zeros, .literal ':',
    .number .second .zeros, .literal ' ', .meridiem]

def dayMonthYear : Layout :=
  [.number .day .spaces, .literal '-', .shortMonthName, .literal '-', .number .year .zeros]

def full : Layout :=
  [.shortWeekdayName, .literal ' ', .shortMonthName, .literal ' ', .number .day .spaces,
    .literal ' '] ++ clock ++ [.literal ' ', .number .year .zeros]

/-- What a letter after a percent sign stands for. -/
def letter? (c : Char) : Option Layout :=
  match number? c with
  | some (field, fill) => some [.number field fill]
  | none =>
    match c with
    | 'b' | 'h' => some [.shortMonthName]
    | 'B' => some [.monthName]
    | 'a' => some [.shortWeekdayName]
    | 'A' => some [.weekdayName]
    | 'p' => some [.meridiem]
    | 'P' => some [.lowerMeridiem]
    | 'D' | 'x' => some slashed
    | 'F' => some dashed
    | 'v' => some dayMonthYear
    | 'R' => some hourMinute
    | 'T' | 'X' => some clock
    | 'r' => some dialClock
    | 'c' => some full
    | 't' => some [.literal '\t']
    | 'n' => some [.literal '\n']
    | '%' => some [.literal '%']
    | _ => none

/-- A number with its fill chosen by a flag; nothing else takes one. -/
def filled? (fill : Fill) (c : Char) : Option Layout :=
  (number? c).map fun (field, _) => [.number field fill]

def read? : List Char → Option Layout
  | [] => some []
  | '%' :: '-' :: c :: rest => return (← filled? .none c) ++ (← read? rest)
  | '%' :: '_' :: c :: rest => return (← filled? .spaces c) ++ (← read? rest)
  | '%' :: '0' :: c :: rest => return (← filled? .zeros c) ++ (← read? rest)
  | '%' :: '.' :: 'f' :: rest => return .fraction :: (← read? rest)
  | '%' :: '.' :: '3' :: 'f' :: rest => return .digits true 3 :: (← read? rest)
  | '%' :: '.' :: '6' :: 'f' :: rest => return .digits true 6 :: (← read? rest)
  | '%' :: '.' :: '9' :: 'f' :: rest => return .digits true 9 :: (← read? rest)
  | '%' :: '3' :: 'f' :: rest => return .digits false 3 :: (← read? rest)
  | '%' :: '6' :: 'f' :: rest => return .digits false 6 :: (← read? rest)
  | '%' :: '9' :: 'f' :: rest => return .digits false 9 :: (← read? rest)
  | '%' :: c :: rest => return (← letter? c) ++ (← read? rest)
  | '%' :: [] => none
  | c :: rest => return .literal c :: (← read? rest)

def write? (d : Date) (t : Option TimeOfDay) (layout : Layout) : Option String :=
  return String.join (← layout.mapM (·.write? d t))

end Layout

def Instant.format (t : Instant) (pattern : String) : Except InvalidLayout String :=
  match (Layout.read? pattern.toList).bind (·.write? t.date (some t.time)) with
  | some text => .ok text
  | none => .error ⟨pattern⟩

/-- The text of a bare date under a pattern, which may not ask for a time. -/
def Date.format? (d : Date) (pattern : String) : Option String :=
  (Layout.read? pattern.toList).bind (·.write? d none)

end DatePhrase.Calendar
