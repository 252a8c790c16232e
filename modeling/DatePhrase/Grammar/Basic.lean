import DatePhrase.Calendar.Date
import DatePhrase.Calendar.Instant
import DatePhrase.Vocabulary.Table

/-! Grammars read free text and report the spans that they understand, in the order of the text. -/
namespace DatePhrase
open Calendar

/-- The parts of a date and time that a text can state. -/
inductive Component where
  | year | month | day | weekday | hour | minute
  deriving DecidableEq, Repr

namespace Component

def all : List Component := [year, month, day, weekday, hour, minute]

def name : Component → String
  | year => "year" | month => "month" | day => "day"
  | weekday => "weekday" | hour => "hour" | minute => "minute"

def ofName? (text : String) : Option Component :=
  all.find? (·.name == text)

end Component

/-- The components that a text states, as against those filled in. -/
structure Certainty where
  year : Bool
  month : Bool
  day : Bool
  weekday : Bool
  hour : Bool
  minute : Bool
  deriving DecidableEq, Repr

namespace Certainty

def none : Certainty := ⟨false, false, false, false, false, false⟩

def holds (c : Certainty) : Component → Bool
  | .year => c.year | .month => c.month | .day => c.day
  | .weekday => c.weekday | .hour => c.hour | .minute => c.minute

def add (c : Certainty) : Component → Certainty
  | .year => { c with year := true } | .month => { c with month := true }
  | .day => { c with day := true } | .weekday => { c with weekday := true }
  | .hour => { c with hour := true } | .minute => { c with minute := true }

def ofList (parts : List Component) : Certainty := parts.foldl add none

def toList (c : Certainty) : List Component := Component.all.filter c.holds

def calendarDay : Certainty := ofList [.year, .month, .day]

def clock : Certainty := ofList [.hour, .minute]

def withClock (c : Certainty) : Certainty := (c.add .hour).add .minute

/-- Whether the text states a time of day. -/
def statesTime (c : Certainty) : Bool := c.hour || c.minute

@[simp] theorem holds_add (c : Certainty) (p q : Component) :
    (c.add p).holds q = (c.holds q || decide (p = q)) := by
  cases p <;> cases q <;> simp [add, holds]

end Certainty

structure Match where
  /-- Bytes before the span. -/
  index : Nat
  text : String
  start : Instant
  certain : Certainty
  deriving DecidableEq

namespace Match

def length (m : Match) : Nat := m.text.length

end Match

/-- How a grammar is asked to read a text. -/
structure Options where
  /-- The instant that relative expressions start from. -/
  reference : Instant
  /-- Whether ambiguous expressions are read into the future. -/
  forward : Bool
  weekStart : Weekday
  deriving DecidableEq

namespace Options

/-- Without forward bias. -/
def plain (reference : Instant) (weekStart : Weekday) : Options := ⟨reference, false, weekStart⟩

end Options

/-- Why a grammar gives no matches. -/
inductive ReadError where
  /-- A date that it computes lies outside the calendar. -/
  | outOfCalendar
  /-- It fails on this text. -/
  | failed (message : String)
  deriving DecidableEq, Repr

def ReadError.ofFault : Fault → ReadError
  | .outOfCalendar => .outOfCalendar

structure Grammar where
  language : String
  read : String → Options → Except ReadError (List Match)

/-- How a failure of a grammar is reported. -/
def Grammar.failureText (language message : String) : String :=
  language ++ " grammar failed: " ++ message

end DatePhrase
