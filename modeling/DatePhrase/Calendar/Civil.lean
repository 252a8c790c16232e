/-! The proleptic Gregorian calendar on day numbers, where day 0 is 1970-01-01. Years, months and
days of the month are read off a day number, and `dayNumber` goes back. -/
namespace DatePhrase.Calendar

/-- A year is leap when 4 divides it, centuries only when 400 does. -/
def isLeap (year : Int) : Bool :=
  year % 4 = 0 ∧ (year % 100 ≠ 0 ∨ year % 400 = 0)

/-- The day number of January 1. -/
def yearStart (year : Int) : Int :=
  365 * (year - 1) + (year - 1) / 4 - (year - 1) / 100 + (year - 1) / 400 - 719162

theorem yearStart_succ (year : Int) :
    yearStart (year + 1) = yearStart year + if isLeap year then 366 else 365 := by
  by_cases h : year % 4 = 0 ∧ (year % 100 ≠ 0 ∨ year % 400 = 0)
  · rw [if_pos (by simpa [isLeap] using h)]; simp only [yearStart]; omega
  · rw [if_neg (by simpa [isLeap] using h)]; simp only [yearStart]; omega

/-- The mean length of a year gives the year of a day up to one. -/
def yearGuess (day : Int) : Int :=
  400 * (day + 719162) / 146097 + 1

theorem yearStart_pred_guess_le (day : Int) : yearStart (yearGuess day - 1) ≤ day := by
  simp only [yearStart, yearGuess]; omega

theorem lt_yearStart_guess_add (day : Int) : day < yearStart (yearGuess day + 1 + 1) := by
  simp only [yearStart, yearGuess]; omega

def yearOf (day : Int) : Int :=
  if day < yearStart (yearGuess day) then yearGuess day - 1
  else if yearStart (yearGuess day + 1) ≤ day then yearGuess day + 1
  else yearGuess day

theorem yearStart_yearOf_le (day : Int) : yearStart (yearOf day) ≤ day := by
  have := yearStart_pred_guess_le day
  unfold yearOf; split
  · assumption
  · split <;> omega

theorem lt_yearStart_yearOf (day : Int) : day < yearStart (yearOf day + 1) := by
  have := lt_yearStart_guess_add day
  unfold yearOf; split
  · simpa using ‹_›
  · split <;> omega

/-- Days in each month from January on. -/
def monthLengths (leap : Bool) : List Nat :=
  [31, if leap then 29 else 28, 31, 30, 31, 30, 31, 31, 30, 31, 30, 31]

/-- Months counted from 1. -/
def monthLength (leap : Bool) (month : Nat) : Nat :=
  (monthLengths leap).getD (month - 1) 0

/-- Days of the year before a month. -/
def daysBefore (leap : Bool) (month : Nat) : Nat :=
  ((monthLengths leap).take (month - 1)).foldr (· + ·) 0

/-- Walks over whole lengths: how many fit into `days`, and the days left over. -/
def locate : List Nat → Nat → Nat × Nat
  | [], days => (0, days)
  | length :: rest, days =>
    if days < length then (0, days)
    else
      let (passed, left) := locate rest (days - length)
      (passed + 1, left)

/-- A day by year, month and day of the month, both counted from 1. -/
structure Civil where
  year : Int
  month : Nat
  day : Nat
  deriving DecidableEq, Repr

/-- Days since January 1. -/
def dayOfYear (day : Int) : Nat :=
  (day - yearStart (yearOf day)).toNat

def civilOf (day : Int) : Civil :=
  let (passed, left) := locate (monthLengths (isLeap (yearOf day))) (dayOfYear day)
  ⟨yearOf day, passed + 1, left + 1⟩

def Civil.isValid (c : Civil) : Bool :=
  1 ≤ c.month && c.month ≤ 12 && 1 ≤ c.day && c.day ≤ monthLength (isLeap c.year) c.month

def Civil.dayNumber (c : Civil) : Int :=
  yearStart c.year + daysBefore (isLeap c.year) c.month + c.day - 1

theorem dayOfYear_lt (day : Int) :
    dayOfYear day < if isLeap (yearOf day) then 366 else 365 := by
  have h₁ := yearStart_yearOf_le day
  have h₂ := lt_yearStart_yearOf day
  rw [yearStart_succ] at h₂
  simp only [dayOfYear]
  split <;> rename_i h <;> simp only [h, if_true, if_false, Bool.false_eq_true] at h₂ <;> omega

end DatePhrase.Calendar
