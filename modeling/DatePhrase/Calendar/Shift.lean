import DatePhrase.Calendar.Duration
import DatePhrase.Calendar.Instant

/-! Adding counted units to an instant. Minutes to weeks are exact lengths; months and years count
on the calendar and keep to the end of a shorter month. Each step of the arithmetic is checked. -/
namespace DatePhrase.Calendar

inductive TimeUnit where
  | minute | hour | day | week | month | year
  deriving DecidableEq, Repr

namespace TimeUnit

def all : List TimeUnit := [minute, hour, day, week, month, year]

def name : TimeUnit → String
  | minute => "minute" | hour => "hour" | day => "day"
  | week => "week" | month => "month" | year => "year"

def ofName? (text : String) : Option TimeUnit :=
  all.find? (·.name == text)

/-- A count of minutes or hours states a time of day. -/
def isClock : TimeUnit → Bool
  | minute | hour => true
  | _ => false

@[simp] theorem ofName?_name (u : TimeUnit) : ofName? u.name = some u := by cases u <;> rfl

end TimeUnit

structure Offset where
  amount : Int
  unit : TimeUnit
  deriving DecidableEq, Repr

/-- Months since January of year 0. -/
def Date.monthIndex (d : Date) : Int := 12 * d.year + (d.month - 1 : Nat)

/-- The same day of the month `count` months on, or that month's last day if it is shorter. -/
def Date.addMonths? (d : Date) (count : Int) : Option Date :=
  let index := d.monthIndex + count
  let year := index / 12
  let month := (index % 12).toNat + 1
  Date.ofCivil? year month (min d.day (monthLength (isLeap year) month))

namespace Instant

/-- Later by a counted unit of so many seconds. -/
def addCount? (t : Instant) (count : Int) (unit : Nat) : Option Instant := do
  let length ← Duration.ofCount? count unit
  t.shift? length.seconds

/-- The most months that can be counted in one step, either way. -/
def maxMonths : Nat := 4294967295

/-- Months ahead, or back by as many as the count has without its sign. -/
def addMonths? (t : Instant) (count : Int) : Option Instant := do
  let months := count.natAbs
  if maxMonths < months then none
  else
    let date ← t.date.addMonths? (if 0 ≤ count then months else -months)
    return ⟨date, t.time⟩

/-- The instant `count` units later, when the calendar has it. -/
def add? (t : Instant) (count : Int) : TimeUnit → Option Instant
  | .minute => t.addCount? count 60
  | .hour => t.addCount? count (60 * 60)
  | .day => t.addCount? count (24 * 60 * 60)
  | .week => t.addCount? count (7 * 24 * 60 * 60)
  | .month => t.addMonths? count
  | .year => do t.addMonths? (← product? count 12)

def addOffset? (t : Instant) (o : Offset) : Option Instant :=
  t.add? o.amount o.unit

def startOfNextMonth? (t : Instant) : Option Instant := do
  let first ← Date.ofCivil? t.date.year t.date.month 1
  return (← first.addMonths? 1).midnight

def startOfNextYear? (t : Instant) : Option Instant :=
  (Date.ofCivil? (t.date.year + 1) 1 1).map Date.midnight

end Instant

end DatePhrase.Calendar
