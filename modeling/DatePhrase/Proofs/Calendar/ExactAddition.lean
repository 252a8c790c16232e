import DatePhrase.Proofs.Calendar.CivilDates

/-! What adding counted units gives, by where it leads and not by the arithmetic on the way. A unit
has a fixed length or counts months; one of fixed length leads so many seconds ahead, months keep
the time of day and the day of the month as far as the month has it. Main statement: for every count
the step leads there if the calendar has it, and fails exactly if it does not. -/
namespace DatePhrase.Calendar

/-- The months of a unit that is counted on the calendar. -/
def TimeUnit.months? : TimeUnit → Option Nat
  | .month => some 1
  | .year => some 12
  | .minute | .hour | .day | .week => none

namespace Instant
variable {t u : Instant} {count : Int} {unit : TimeUnit} {length months : Nat}

theorem add?_of_months (counted : unit.months? = some months) (t : Instant) (count : Int) :
    t.add? count unit = (⟨·, t.time⟩) <$> t.date.addMonths? (count * months) := by
  cases unit with
  | month =>
    obtain rfl := Option.some.inj counted
    rw [Int.natCast_one, Int.mul_one, ← addMonths?_eq]
    rfl
  | year =>
    obtain rfl := Option.some.inj counted
    rw [add?_year, addMonths?_eq, Int.mul_comm]
    rfl
  | minute | hour | day | week => cases counted

/-- Months lead to the same time of day, in the month so many months on, on the same day or on the
last day of a shorter month. -/
theorem add?_eq_some_iff_monthIndex (counted : unit.months? = some months) :
    t.add? count unit = some u ↔ u.time = t.time ∧
      u.date.monthIndex = t.date.monthIndex + count * months ∧
      u.date.day = min t.date.day (monthDays (t.date.monthIndex + count * months)) := by
  obtain ⟨date, time⟩ := u
  rw [add?_of_months counted, ← Date.addMonths?_eq_some_iff]
  simp only [Option.map_eq_map, Option.map_eq_some_iff, mk.injEq]
  constructor
  · rintro ⟨d, later, rfl, rfl⟩
    exact ⟨rfl, later⟩
  · rintro ⟨rfl, later⟩
    exact ⟨date, later, rfl, rfl⟩

theorem add?_eq_none_iff_monthIndex (counted : unit.months? = some months) :
    t.add? count unit = none ↔
      ∀ d : Date, d.monthIndex ≠ t.date.monthIndex + count * months := by
  rw [add?_of_months counted, ← Date.addMonths?_eq_none_iff]
  exact Option.map_eq_none_iff

/-- Adding `count` units of fixed length leads exactly so much later, out of a leap second unless it
is none, and adding months to the month so many months on, at the same time on the same day or on
the last day of a shorter month. Either fails only where the calendar has no such instant, or no day
of that month. Years count twelve months each. -/
theorem adds_exactly (t : Instant) (count : Int) :
    (∀ unit, ∀ length : Nat, unit.seconds? = some length →
      let seconds := count * length
      let target := t.origin seconds + seconds * nanosPerSecond
      (∀ u, t.add? count unit = some u ↔
        u.number = target ∧ u.time.leap = (t.time.leap && seconds = 0)) ∧
      (t.add? count unit = none ↔ ∀ u : Instant, u.number ≠ target)) ∧
    (∀ u, t.add? count .month = some u ↔ u.time = t.time ∧
      u.date.monthIndex = t.date.monthIndex + count ∧
      u.date.day = min t.date.day (monthDays (t.date.monthIndex + count))) ∧
    (t.add? count .month = none ↔ ∀ d : Date, d.monthIndex ≠ t.date.monthIndex + count) ∧
    t.add? count .year = t.add? (12 * count) .month := by
  have one : TimeUnit.month.months? = some 1 := rfl
  refine ⟨fun unit length fixed => ⟨fun u => ?_, ?_⟩, fun u => ?_, ?_, ?_⟩
  · rw [add?_of_seconds fixed, shift?_eq_some_iff]
  · rw [add?_of_seconds fixed, shift?_eq_none_iff]
  · rw [add?_eq_some_iff_monthIndex one, Int.natCast_one, Int.mul_one]
  · rw [add?_eq_none_iff_monthIndex one, Int.natCast_one, Int.mul_one]
  · exact add?_year t count

/-- From the leap day of 2028 the least count leads out of the calendar in every unit, though its
months have an absolute value that no signed word holds; three years back is no leap day. A minute
before a leap second lies a second later on the clock. -/
theorem adds_exactly_leastCount :
    let t : Instant := ⟨⟨21243, by decide, by decide⟩, ⟨10 * nanosPerHour, by decide, false⟩⟩
    let leap : Instant := ⟨t.date, t.time.inLeap⟩
    let least : Int := -9223372036854775808
    TimeUnit.week.seconds? = some (7 * 24 * 60 * 60) ∧
      (∀ u : Instant,
        u.number ≠ t.number + least * (7 * 24 * 60 * 60 : Nat) * nanosPerSecond) ∧
      (∀ d : Date, d.monthIndex ≠ t.date.monthIndex + least) ∧
      (∃ u, t.add? (-3) .year = some u ∧ u.time = t.time ∧
        u.date.monthIndex = t.date.monthIndex - 36 ∧ u.date.day = 28) ∧
      ∃ u, leap.add? (-1) .minute = some u ∧ u.number = t.number - 59 * nanosPerSecond ∧
        u.time.leap = false := by
  intro t leap least
  obtain ⟨fixed, -, months, -⟩ := adds_exactly t least
  obtain ⟨-, -, -, years⟩ := adds_exactly t (-3)
  obtain ⟨-, later, -⟩ := adds_exactly t (-36)
  obtain ⟨clock, -⟩ := adds_exactly leap (-1)
  have out_weeks : ∀ u : Instant, u.number ≠
      t.origin (least * (7 * 24 * 60 * 60 : Nat)) + least * (7 * 24 * 60 * 60 : Nat) * nanosPerSecond :=
    (fixed .week _ rfl).2.1 (by decide)
  rw [origin_of_regular rfl] at out_weeks
  have out_months : t.add? least .month = none := by decide
  let u : Instant := ⟨⟨20147, by decide, by decide⟩, t.time⟩
  have found : t.add? (-36) .month = some u := by decide +kernel
  let before : Instant := ⟨t.date, ⟨10 * nanosPerHour - 59 * nanosPerSecond, by decide, false⟩⟩
  have back : leap.add? (-1) .minute = some before := by decide
  refine ⟨rfl, out_weeks, months.1 out_months,
    ⟨u, years.trans found, ?_⟩, ⟨before, back, ?_⟩⟩
  · obtain ⟨time, index, day⟩ := (later u).1 found
    exact ⟨time, index, by decide +kernel⟩
  · obtain ⟨number, regular⟩ := ((clock .minute _ rfl).1 before).1 back
    exact ⟨number.trans (by decide), regular⟩

end Instant

end DatePhrase.Calendar
