import DatePhrase.Calendar.Date

/-! Times of day and instants, both exact to the nanosecond and leap seconds among them. -/
namespace DatePhrase.Calendar

def nanosPerSecond : Nat := 1000000000

def nanosPerMinute : Nat := 60 * nanosPerSecond

def nanosPerHour : Nat := 60 * nanosPerMinute

def nanosPerDay : Nat := 24 * nanosPerHour

def secondsPerDay : Nat := 86400

/-- A reading of the clock, in nanoseconds since midnight. A leap second reads like the second before
it, which any second can be. -/
structure TimeOfDay where
  nanos : Nat
  nanos_lt : nanos < nanosPerDay
  leap : Bool
  deriving DecidableEq

namespace TimeOfDay

def midnight : TimeOfDay := ⟨0, by decide, false⟩

def ofNanos? (nanos : Nat) : Option TimeOfDay :=
  if h : nanos < nanosPerDay then some ⟨nanos, h, false⟩ else none

/-- A clock reading: hours before 24, minutes and seconds before 60. -/
def ofClock? (hour minute second nano : Nat) : Option TimeOfDay :=
  if hour < 24 ∧ minute < 60 ∧ second < 60 ∧ nano < nanosPerSecond then
    ofNanos? (hour * nanosPerHour + minute * nanosPerMinute + second * nanosPerSecond + nano)
  else none

/-- A second later, in the leap second that follows. -/
def inLeap (t : TimeOfDay) : TimeOfDay := { t with leap := true }

def hour (t : TimeOfDay) : Nat := t.nanos / nanosPerHour

def minute (t : TimeOfDay) : Nat := t.nanos / nanosPerMinute % 60

/-- A leap second has the number behind that of the second it reads like, as a rule 60. -/
def second (t : TimeOfDay) : Nat := t.nanos / nanosPerSecond % 60 + t.leap.toNat

def fraction (t : TimeOfDay) : Nat := t.nanos % nanosPerSecond

/-- Whole seconds since midnight, leap seconds left out. -/
def wholeSeconds (t : TimeOfDay) : Nat := t.nanos / nanosPerSecond

/-- The place in the order of a day in which each second has a leap second behind it. -/
def rank (t : TimeOfDay) : Nat :=
  (2 * t.wholeSeconds + t.leap.toNat) * nanosPerSecond + t.fraction

instance : LE TimeOfDay := ⟨fun a b => a.rank ≤ b.rank⟩
instance : LT TimeOfDay := ⟨fun a b => a.rank < b.rank⟩
instance (a b : TimeOfDay) : Decidable (a ≤ b) := inferInstanceAs (Decidable (a.rank ≤ b.rank))
instance (a b : TimeOfDay) : Decidable (a < b) := inferInstanceAs (Decidable (a.rank < b.rank))

/-- The nanoseconds from `b` to `a` on one day. A leap second counts for the later of the two, and
for both if they read alike to the second. -/
def since (a b : TimeOfDay) : Int :=
  (a.nanos : Int) - b.nanos
    + (if a.leap ∧ b.wholeSeconds ≤ a.wholeSeconds then nanosPerSecond else 0)
    - (if b.leap ∧ a.wholeSeconds ≤ b.wholeSeconds then nanosPerSecond else 0)

@[ext] theorem ext {a b : TimeOfDay} (h : a.nanos = b.nanos) (leap : a.leap = b.leap) : a = b := by
  cases a; cases b; simp_all

end TimeOfDay

/-- A time on a day of the calendar. -/
structure Instant where
  date : Date
  time : TimeOfDay
  deriving DecidableEq

namespace Instant

/-- Nanoseconds since the start of day 0, leap seconds left out. -/
def number (t : Instant) : Int := t.date.number * nanosPerDay + t.time.nanos

def ofNumber? (number : Int) : Option Instant := do
  let date ← Date.ofNumber? (number / nanosPerDay)
  let time ← TimeOfDay.ofNanos? (number % nanosPerDay).toNat
  return ⟨date, time⟩

instance : LE Instant := ⟨fun a b => a.date < b.date ∨ a.date = b.date ∧ a.time ≤ b.time⟩
instance : LT Instant := ⟨fun a b => a.date < b.date ∨ a.date = b.date ∧ a.time < b.time⟩
instance (a b : Instant) : Decidable (a ≤ b) :=
  inferInstanceAs (Decidable (a.date < b.date ∨ a.date = b.date ∧ a.time ≤ b.time))
instance (a b : Instant) : Decidable (a < b) :=
  inferInstanceAs (Decidable (a.date < b.date ∨ a.date = b.date ∧ a.time < b.time))

/-- The nanoseconds from `b` to `a`: those of the days between and those of the clock. -/
def since (a b : Instant) : Int :=
  (a.date.number - b.date.number) * nanosPerDay + a.time.since b.time

/-- The number from which a length is counted. A leap second is a second of its own: going ahead it
counts like the second before it, going back like the second behind it. -/
def origin (t : Instant) (seconds : Int) : Int :=
  t.number + if t.time.leap ∧ seconds < 0 then nanosPerSecond else 0

/-- The instant so many seconds later, when the calendar has it. Every step leads out of a leap
second, save that of no length. -/
def shift? (t : Instant) (seconds : Int) : Option Instant :=
  if seconds = 0 then some t else ofNumber? (t.origin seconds + seconds * nanosPerSecond)

/-- The instant so many days of 24 hours later; leaving the calendar is a fault. -/
def move (t : Instant) (days : Int) : Except Fault Instant :=
  match t.shift? (days * secondsPerDay) with
  | some later => .ok later
  | none => .error .outOfCalendar

theorem ofNumber?_number {t : Instant} (plain : t.time.leap = false) :
    ofNumber? t.number = some t := by
  have h := t.time.nanos_lt
  have hd : nanosPerDay = 86400000000000 := by decide
  have h₁ : t.number / nanosPerDay = t.date.number := by
    simp only [number, hd] at *; omega
  have h₂ : (t.number % nanosPerDay).toNat = t.time.nanos := by
    simp only [number, hd] at *; omega
  obtain ⟨date, nanos, nanos_lt, leap⟩ := t
  simp_all [ofNumber?, TimeOfDay.ofNanos?]

end Instant

def Date.midnight (d : Date) : Instant := ⟨d, .midnight⟩

end DatePhrase.Calendar
