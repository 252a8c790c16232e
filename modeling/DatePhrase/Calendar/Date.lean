import DatePhrase.Calendar.Civil
import DatePhrase.Calendar.Weekday

/-! Dates of a bounded calendar, from -262143-01-01 to 262142-12-31. A step past either end has no
answer: `shift?` gives `none`, and `move` the fault `outOfCalendar`. -/
namespace DatePhrase.Calendar

/-- Why a computation on dates has no answer. -/
inductive Fault where
  | outOfCalendar
  deriving DecidableEq, Repr

instance decidableEqExcept {ε α : Type} [DecidableEq ε] [DecidableEq α] :
    DecidableEq (Except ε α)
  | .ok a, .ok b => decidable_of_iff (a = b) (by rw [Except.ok.injEq])
  | .error a, .error b => decidable_of_iff (a = b) (by rw [Except.error.injEq])
  | .ok _, .error _ => .isFalse nofun
  | .error _, .ok _ => .isFalse nofun

def firstDay : Int := -96465292

def lastDay : Int := 95026236

theorem firstDay_eq : firstDay = yearStart (-262143) := by decide

theorem lastDay_eq : lastDay = yearStart 262143 - 1 := by decide

/-- A day of the calendar, by its number. -/
structure Date where
  number : Int
  first_le : firstDay ≤ number
  le_last : number ≤ lastDay
  deriving DecidableEq

namespace Date

def ofNumber? (number : Int) : Option Date :=
  if h : firstDay ≤ number ∧ number ≤ lastDay then some ⟨number, h.1, h.2⟩ else none

instance : LE Date := ⟨fun a b => a.number ≤ b.number⟩
instance : LT Date := ⟨fun a b => a.number < b.number⟩
instance (a b : Date) : Decidable (a ≤ b) := inferInstanceAs (Decidable (a.number ≤ b.number))
instance (a b : Date) : Decidable (a < b) := inferInstanceAs (Decidable (a.number < b.number))

@[ext] theorem ext {a b : Date} (h : a.number = b.number) : a = b := by
  cases a; cases b; simp_all

@[simp] theorem ofNumber?_number (d : Date) : ofNumber? d.number = some d := by
  simp [ofNumber?, d.first_le, d.le_last]

theorem ofNumber?_eq_some_iff {n : Int} {d : Date} : ofNumber? n = some d ↔ d.number = n := by
  constructor
  · intro h
    unfold ofNumber? at h
    split at h <;> simp_all
    rw [← h]
  · rintro rfl
    simp

theorem ofNumber?_eq_none_iff {n : Int} :
    ofNumber? n = none ↔ n < firstDay ∨ lastDay < n := by
  unfold ofNumber?
  split <;> simp <;> omega

/-- The date `days` later, when the calendar has it. -/
def shift? (d : Date) (days : Int) : Option Date :=
  ofNumber? (d.number + days)

/-- The date `days` later; leaving the calendar is a fault. -/
def move (d : Date) (days : Int) : Except Fault Date :=
  match d.shift? days with
  | some later => .ok later
  | none => .error .outOfCalendar

theorem move_eq_ok_iff {d e : Date} {days : Int} :
    d.move days = .ok e ↔ e.number = d.number + days := by
  unfold move shift?
  cases h : ofNumber? (d.number + days) with
  | none =>
    rw [ofNumber?_eq_none_iff] at h
    have := e.first_le; have := e.le_last
    simp; omega
  | some f =>
    rw [ofNumber?_eq_some_iff] at h
    simp [← h, Date.ext_iff, eq_comm]

def civil (d : Date) : Civil := civilOf d.number

def year (d : Date) : Int := d.civil.year

def month (d : Date) : Nat := d.civil.month

/-- The day of the month, from 1. -/
def day (d : Date) : Nat := d.civil.day

/-- The day of the year, from 1. -/
def ordinal (d : Date) : Nat := dayOfYear d.number + 1

/-- Day 0 was a Thursday. -/
def weekday (d : Date) : Weekday := .ofIndex ((d.number + 4) % 7).toNat

/-- The date of a year, month and day, when there is such a day and the calendar has it. -/
def ofCivil? (year : Int) (month day : Nat) : Option Date :=
  let c : Civil := ⟨year, month, day⟩
  if c.isValid then ofNumber? c.dayNumber else none

end Date

end DatePhrase.Calendar
