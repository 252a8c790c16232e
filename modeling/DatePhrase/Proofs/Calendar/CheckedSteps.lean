import DatePhrase.Proofs.Calendar.DayMoves

/-! Steps by units of fixed length. Every limit that the arithmetic checks, on the product and on the
length, lies beyond the calendar, so a step fails only if its result does. Main statements: minutes,
hours, days and weeks are shifts by their seconds for every count, and units from days on move
the day. -/
namespace DatePhrase.Calendar

/-- The seconds of a unit that is as long wherever it is counted from. -/
def TimeUnit.seconds? : TimeUnit → Option Nat
  | .minute => some 60
  | .hour => some (60 * 60)
  | .day => some (24 * 60 * 60)
  | .week => some (7 * 24 * 60 * 60)
  | .month | .year => none

namespace Instant
variable {t u : Instant} {count : Int} {unit : TimeUnit} {length : Nat}

theorem number_bounds (t : Instant) :
    firstDay * nanosPerDay ≤ t.number ∧ t.number < (lastDay + 1) * nanosPerDay := by
  have time_lt := t.time.nanos_lt
  have first := t.date.first_le
  have last := t.date.le_last
  have positive : nanosPerDay = 86400000000000 := by decide
  simp only [number, positive] at *
  omega

/-- A length that is too long for the clock leads out of the calendar. -/
theorem shift?_of_long {seconds : Int} (long : maxMillis < 1000 * seconds.natAbs) :
    t.shift? seconds = none := by
  rw [shift?_eq_none_iff]
  intro u
  have here := t.number_bounds
  have there := u.number_bounds
  have day : nanosPerDay = 86400000000000 := by decide
  have second : nanosPerSecond = 1000000000 := rfl
  simp only [origin, firstDay, lastDay, day, second, maxMillis] at *
  split <;> omega

theorem addCount?_eq (t : Instant) (count : Int) (unit : Nat) :
    t.addCount? count unit = t.shift? (count * unit) := by
  simp only [addCount?, Duration.ofCount?, product?]
  by_cases long : maxMillis < 1000 * (count * unit).natAbs
  · rw [shift?_of_long long]
    split
    · simp [Duration.ofSeconds?, Nat.not_le.2 long]
    · rfl
  · have word : -9223372036854775808 ≤ count * unit ∧ count * unit ≤ 9223372036854775807 := by
      simp only [maxMillis] at long
      omega
    simp [word, Duration.ofSeconds?, Nat.not_lt.1 long]

/-- A counted unit of fixed length is exact for every count. -/
theorem add?_of_seconds (fixed : unit.seconds? = some length) (t : Instant) (count : Int) :
    t.add? count unit = t.shift? (count * length) := by
  cases unit with
  | minute | hour | day | week =>
    obtain rfl := Option.some.inj fixed
    exact addCount?_eq t count _
  | month | year => cases fixed

theorem add?_day (t : Instant) (count : Int) :
    t.add? count .day = t.shift? (count * secondsPerDay) :=
  add?_of_seconds rfl t count

theorem add?_week (t : Instant) (count : Int) :
    t.add? count .week = t.shift? (7 * count * secondsPerDay) := by
  have days : count * ((7 * 24 * 60 * 60 : Nat) : Int) = 7 * count * secondsPerDay := by
    simp only [secondsPerDay]
    omega
  rw [add?_of_seconds rfl, days]

theorem movesDay_addMonths? (count : Int) : MovesDay (·.addMonths? count) := by
  by_cases many : maxMonths < count.natAbs
  · exact .of_map (g := fun _ => none) fun t => by simp [addMonths?, many]
  · refine .of_map (g := (·.addMonths? (if 0 ≤ count then count.natAbs else -count.natAbs)))
      fun t => ?_
    simp only [addMonths?, many, if_false]
    exact (map_eq_pure_bind _ _).symm

/-- Units from days on move the day; minutes and hours move the clock. -/
theorem movesDay_add? {u : TimeUnit} (untimed : u.isClock = false) (count : Int) :
    MovesDay (·.add? count u) := by
  cases u with
  | minute | hour => cases untimed
  | day =>
    simp only [add?_day]
    exact movesDay_shift? fun _ => count
  | week =>
    simp only [add?_week]
    exact movesDay_shift? fun _ => 7 * count
  | month => exact movesDay_addMonths? count
  | year =>
    simp only [add?]
    cases product? count 12 with
    | none => exact .of_map (g := fun _ => none) fun _ => rfl
    | some months => exact movesDay_addMonths? months

end Instant

end DatePhrase.Calendar
