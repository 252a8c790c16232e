import DatePhrase.Calendar.Instant

/-! Moving to a weekday, and runs of days. -/
namespace DatePhrase.Calendar

/-- The given weekday of the week from Sunday to Saturday around `t`, so many days of 24 hours ahead
or back. -/
def Instant.setWeekday (t : Instant) (w : Weekday) : Except Fault Instant :=
  t.move ((w.index : Int) - t.date.weekday.index)

namespace Date

/-- The first such weekday after `d`. -/
def nextAfter (d : Date) (w : Weekday) : Except Fault Date :=
  let ahead := d.weekday.daysUntil w
  d.move (if ahead = 0 then 7 else ahead)

/-- The first such weekday from `d` on. -/
def onOrAfter (d : Date) (w : Weekday) : Except Fault Date :=
  d.move (d.weekday.daysUntil w)

/-- A step of the walk along the days: the day that it comes by and the day after it. The calendar's
last day has no day after it, so that the walk ends without coming by it. -/
def next? (d : Date) : Option (Date × Date) := (d.shift? 1).map (d, ·)

/-- The days that a walk from `d` comes by as long as they are not behind `stop`, in so many steps. -/
def walk (stop : Date) : Nat → Date → List Date
  | 0, _ => []
  | steps + 1, d =>
    match d.next? with
    | none => []
    | some (day, rest) => if day ≤ stop then day :: walk stop steps rest else []

/-- The days from `start` up to `stop`. A walk over the days between takes one step more, in which it
stops. -/
def upTo (start stop : Date) : List Date :=
  walk stop ((stop.number - start.number).toNat + 2) start

end Date

inductive WeekStart where
  /-- As is usual where the primary language is spoken. -/
  | localeDefault
  | on (day : Weekday)
  deriving DecidableEq, Repr

namespace WeekStart

/-- English and Japanese weeks start on Sunday, all others on Monday. -/
def resolve (start : WeekStart) (primaryLanguage : String) : Weekday :=
  match start with
  | on day => day
  | localeDefault => if primaryLanguage = "en" ∨ primaryLanguage = "ja" then .sunday else .monday

def name : WeekStart → String
  | localeDefault => "locale-default"
  | on day => day.name

def ofName? (text : String) : Option WeekStart :=
  if text = "locale-default" then some localeDefault else (Weekday.ofName? text).map on

theorem ofName?_name (start : WeekStart) : ofName? start.name = some start := by
  cases start with
  | localeDefault => rfl
  | on day => cases day <;> rfl

end WeekStart

end DatePhrase.Calendar
