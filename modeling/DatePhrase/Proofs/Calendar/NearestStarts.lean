import DatePhrase.Proofs.Calendar.CivilDates
import DatePhrase.Proofs.Calendar.DaysAhead
import Mathlib.Order.Monotone.Basic

/-! The nearest weekday, month and year ahead. Months and years begin on day numbers that grow from
one to the next, in the calendar and beyond it, so the start behind the one that a day lies in is the
first start ahead of the day. Main statement: a jump to a weekday finds the first one ahead, and a
jump to the next month or year the first midnight at which one begins, unless the calendar has ended
by then. -/
namespace DatePhrase.Calendar

/-- A growing sequence passes a day once: the term behind the last one up to the day is the first
one ahead. -/
theorem first_term_ahead {start : Int → Int} (grows : ∀ i, start i < start (i + 1)) {i day : Int}
    (lower : start i ≤ day) : ∀ j, day < start j → start (i + 1) ≤ start j := by
  intro j ahead
  have increasing := strictMono_int_of_lt_succ grows
  have later : i < j := increasing.lt_iff_lt.1 (by omega)
  exact increasing.monotone later

theorem yearStart_lt_succ (year : Int) : yearStart year < yearStart (year + 1) := by
  rw [yearStart_succ]
  split <;> omega

/-- The day number on which a month begins, by the months from January of year 0 on. -/
def monthStart (index : Int) : Int :=
  Civil.dayNumber ⟨index / 12, (index % 12).toNat + 1, 1⟩

theorem daysBefore_succ (leap : Bool) (month : Nat) (first : 1 ≤ month) (last : month < 12) :
    daysBefore leap (month + 1) = daysBefore leap month + monthLength leap month := by
  have each : ∀ leap, ∀ m < 12, 1 ≤ m →
      daysBefore leap (m + 1) = daysBefore leap m + monthLength leap m := by decide
  exact each leap month last first

/-- Each month begins where the one before it ends, in one year or over its end. -/
theorem monthStart_succ (index : Int) :
    monthStart (index + 1) = monthStart index + monthDays index := by
  simp only [monthStart, monthDays, Civil.dayNumber]
  by_cases december : index % 12 = 11
  · have year : (index + 1) / 12 = index / 12 + 1 := by omega
    have january : (index + 1) % 12 = 0 := by omega
    have whole : ∀ leap, (daysBefore leap 12 + monthLength leap 12 : Int) =
        if leap then 366 else 365 := by decide
    have days := whole (isLeap (index / 12))
    have none : ∀ leap, daysBefore leap 1 = 0 := by decide
    rw [year, january, december, yearStart_succ]
    simp only [Int.toNat_zero, Nat.zero_add, none, Int.reduceToNat, Nat.reduceAdd]
    omega
  · have year : (index + 1) / 12 = index / 12 := by omega
    have month : ((index + 1) % 12).toNat = (index % 12).toNat + 1 := by omega
    have days := daysBefore_succ (isLeap (index / 12)) ((index % 12).toNat + 1)
      (by omega) (by omega)
    rw [year, month, days]
    omega

theorem monthStart_lt_succ (index : Int) : monthStart index < monthStart (index + 1) := by
  have days := Date.le_monthDays index
  rw [monthStart_succ]
  omega

namespace Civil

/-- The first day of a month. -/
def OpensMonth (c : Civil) : Prop := c.day = 1

/-- The first day of a year. -/
def OpensYear (c : Civil) : Prop := c.month = 1 ∧ c.day = 1

instance (c : Civil) : Decidable c.OpensMonth := inferInstanceAs (Decidable (_ = _))
instance (c : Civil) : Decidable c.OpensYear := inferInstanceAs (Decidable (_ ∧ _))

theorem dayNumber_january (year : Int) : dayNumber ⟨year, 1, 1⟩ = yearStart year := by
  have none : daysBefore (isLeap year) 1 = 0 := rfl
  simp only [dayNumber, none]
  omega

theorem opensMonth_iff {n : Int} : (civilOf n).OpensMonth ↔ ∃ index, monthStart index = n := by
  constructor
  · intro opens
    obtain ⟨valid, same⟩ := isValid_civilOf n
    obtain ⟨⟨one, twelve⟩, -⟩ := isValid_iff.1 valid
    refine ⟨12 * (civilOf n).year + ((civilOf n).month - 1 : Nat), ?_⟩
    have year : (12 * (civilOf n).year + ((civilOf n).month - 1 : Nat)) / 12 =
        (civilOf n).year := by omega
    have month : ((12 * (civilOf n).year + ((civilOf n).month - 1 : Nat)) % 12).toNat + 1 =
        (civilOf n).month := by omega
    rw [OpensMonth] at opens
    rw [monthStart, year, month, ← opens]
    exact same
  · rintro ⟨index, rfl⟩
    rw [monthStart, civilOf_dayNumber (Date.isValid_first (by omega) (by omega))]
    rfl

theorem opensYear_iff {n : Int} : (civilOf n).OpensYear ↔ ∃ year, yearStart year = n := by
  constructor
  · rintro ⟨month, day⟩
    refine ⟨(civilOf n).year, ?_⟩
    rw [← dayNumber_january]
    nth_rewrite 1 [← month]
    rw [← day]
    exact (isValid_civilOf n).2
  · rintro ⟨year, rfl⟩
    rw [← dayNumber_january, civilOf_dayNumber (Date.isValid_first (Nat.le_refl 1) (by decide))]
    exact ⟨rfl, rfl⟩

end Civil

namespace Date

/-- The days of a month count on from its start. -/
theorem number_eq (d : Date) : d.number = monthStart d.monthIndex + (d.day - 1 : Nat) := by
  have same := (isValid_civilOf d.number).2
  have one := d.day_bounds.1
  have start : monthStart d.monthIndex = Civil.dayNumber ⟨d.year, d.month, 1⟩ := by
    rw [monthStart, ← d.year_eq, ← d.month_eq]
  have here : d.number = Civil.dayNumber ⟨d.year, d.month, d.day⟩ := same.symm
  rw [start, here]
  simp only [Civil.dayNumber]
  omega

theorem monthStart_bounds (d : Date) :
    monthStart d.monthIndex ≤ d.number ∧ d.number < monthStart (d.monthIndex + 1) := by
  have place := d.number_eq
  have days := d.day_bounds
  have length : monthLength (isLeap d.year) d.month = monthDays d.monthIndex := by
    rw [monthDays, ← d.year_eq, ← d.month_eq]
  rw [length] at days
  rw [monthStart_succ]
  omega

end Date

namespace Instant

/-- Of the midnights of such days the first one after the instant, by the number of its day, be that
in the calendar or not. -/
structure FirstMidnight (opens : Civil → Prop) (t : Instant) (n : Int) : Prop where
  after : t.number < n * nanosPerDay
  opened : opens (civilOf n)
  first : ∀ m : Int, t.number < m * nanosPerDay → opens (civilOf m) → n ≤ m

variable {t : Instant}

theorem lt_midnight_iff {n : Int} : t.number < n * nanosPerDay ↔ t.date.number < n := by
  have time_lt := t.time.nanos_lt
  have positive : nanosPerDay = 86400000000000 := by decide
  simp only [number, positive] at *
  omega

/-- Where such days are the terms of a growing sequence, the term behind the one that the date lies
in has the first midnight. -/
theorem firstMidnight_of_starts {opens : Civil → Prop} {start : Int → Int}
    (starts : ∀ {n}, opens (civilOf n) ↔ ∃ i, start i = n) (grows : ∀ i, start i < start (i + 1))
    {i : Int} (lower : start i ≤ t.date.number) (upper : t.date.number < start (i + 1)) :
    t.FirstMidnight opens (start (i + 1)) := by
  refine ⟨lt_midnight_iff.2 upper, starts.2 ⟨i + 1, rfl⟩, fun m after opened => ?_⟩
  obtain ⟨j, rfl⟩ := starts.1 opened
  exact first_term_ahead grows lower j (lt_midnight_iff.1 after)

/-- The next month begins on the day number that the months before it lead to. -/
theorem startOfNextMonth?_eq_ofNumber? (t : Instant) : t.startOfNextMonth? =
    (Date.ofNumber? (monthStart (t.date.monthIndex + 1))).map Date.midnight := by
  rw [startOfNextMonth?_eq, Date.ofCivil?, if_pos (Date.isValid_first (by omega) (by omega)),
    monthStart]

theorem startOfNextYear?_eq_ofNumber? (t : Instant) : t.startOfNextYear? =
    (Date.ofNumber? (yearStart (t.date.year + 1))).map Date.midnight := by
  rw [startOfNextYear?, Date.ofCivil?,
    if_pos (Date.isValid_first (Nat.le_refl 1) (by decide)), Civil.dayNumber_january]

/-- A midnight after an instant is out of the calendar only if its day is past the last. -/
theorem map_midnight_eq_none_iff {opens : Civil → Prop} {n : Int} (first : t.FirstMidnight opens n) :
    (Date.ofNumber? n).map Date.midnight = none ↔ lastDay < n := by
  have ahead := lt_midnight_iff.1 first.after
  have here := t.date.first_le
  rw [Option.map_eq_none_iff, Date.ofNumber?_eq_none_iff]
  omega

/-- A jump to a weekday leads to the first one after the date, or from it on, wherever the calendar
has one. A jump to the next month or year leads to the first midnight after the instant at which a
month or a year begins, and has no answer just when that is past the end of the calendar. -/
theorem jumps_to_nearest (t : Instant) (d e : Date) (w : Weekday) :
    (d.nextAfter w = .ok e ↔ d.FirstAfter w e) ∧ (d.onOrAfter w = .ok e ↔ d.FirstFrom w e) ∧
    (∃ n, t.FirstMidnight Civil.OpensMonth n ∧
      t.startOfNextMonth? = (Date.ofNumber? n).map Date.midnight ∧
      (t.startOfNextMonth? = none ↔ lastDay < n)) ∧
    ∃ n, t.FirstMidnight Civil.OpensYear n ∧
      t.startOfNextYear? = (Date.ofNumber? n).map Date.midnight ∧
      (t.startOfNextYear? = none ↔ lastDay < n) := by
  obtain ⟨month_lower, month_upper⟩ := t.date.monthStart_bounds
  obtain ⟨year_lower, year_upper⟩ := t.date.number_bounds
  have month := firstMidnight_of_starts Civil.opensMonth_iff monthStart_lt_succ
    month_lower month_upper
  have year := firstMidnight_of_starts Civil.opensYear_iff yearStart_lt_succ year_lower year_upper
  refine ⟨Date.nextAfter_eq_ok_iff_firstAfter, Date.onOrAfter_eq_ok_iff_firstFrom,
    ⟨_, month, t.startOfNextMonth?_eq_ofNumber?, ?_⟩, ⟨_, year, t.startOfNextYear?_eq_ofNumber?, ?_⟩⟩
  · rw [startOfNextMonth?_eq_ofNumber?, map_midnight_eq_none_iff month]
  · rw [startOfNextYear?_eq_ofNumber?, map_midnight_eq_none_iff year]

example : startOfNextMonth? ⟨⟨lastDay, by decide, by decide⟩, .midnight⟩ = none := by
  decide +kernel

end Instant

end DatePhrase.Calendar
