import DatePhrase.Proofs.Calendar.CheckedSteps
import Mathlib.Algebra.GroupWithZero.Nat

/-! Days by year, month and day of the month. Reading a day number and going back are inverse to
each other: the day number of a valid date lies in its year, and a walk over the months of the year
ends in its month. Main statements: the calendar has the one date of every year, month and day that
are valid and in its range, and the next month and year start on the days they should. -/
namespace DatePhrase.Calendar

section Walk
variable {lengths : List Nat} {days passed left : Nat}

theorem daysBefore_eq (leap : Bool) (month : Nat) :
    daysBefore leap month = ((monthLengths leap).take (month - 1)).sum := rfl

theorem sum_take_add_le (within : passed < lengths.length) :
    (lengths.take passed).sum + lengths[passed] ≤ lengths.sum := by
  induction lengths generalizing passed with
  | nil => exact absurd within (Nat.not_lt_zero _)
  | cons length rest ih =>
    cases passed with
    | zero => simp
    | succ passed =>
      have later := ih (Nat.lt_of_succ_lt_succ within)
      simp only [List.take_succ_cons, List.sum_cons, List.getElem_cons_succ]
      omega

/-- A walk over whole lengths ends where it should. -/
theorem locate_sum (within : passed < lengths.length) (short : left < lengths[passed]) :
    locate lengths ((lengths.take passed).sum + left) = (passed, left) := by
  induction lengths generalizing passed with
  | nil => exact absurd within (Nat.not_lt_zero _)
  | cons length rest ih =>
    cases passed with
    | zero =>
      simp only [List.getElem_cons_zero] at short
      simp [locate, short]
    | succ passed =>
      have behind : ¬ length + (rest.take passed).sum + left < length := by omega
      have more : length + (rest.take passed).sum + left - length =
          (rest.take passed).sum + left := by omega
      simp only [List.take_succ_cons, List.sum_cons, locate, behind, if_false, more,
        ih (Nat.lt_of_succ_lt_succ within) short]

theorem exists_locate (within : days < lengths.sum) :
    ∃ passed left, ∃ h : passed < lengths.length, locate lengths days = (passed, left) ∧
      left < lengths[passed] ∧ (lengths.take passed).sum + left = days := by
  induction lengths generalizing days with
  | nil => exact absurd within (Nat.not_lt_zero _)
  | cons length rest ih =>
    by_cases short : days < length
    · exact ⟨0, days, by simp, by simp [locate, short], short, by simp⟩
    · rw [List.sum_cons] at within
      have fewer : days - length < rest.sum := by omega
      obtain ⟨passed, left, h, found, bound, same⟩ := ih fewer
      refine ⟨passed + 1, left, by simpa using h, by simp [locate, short, found], bound, ?_⟩
      simp only [List.take_succ_cons, List.sum_cons]
      omega

end Walk

theorem yearStart_le {y z : Int} (h : y ≤ z) : yearStart y ≤ yearStart z := by
  simp only [yearStart]
  omega

/-- A day lies in one year. -/
theorem yearOf_eq {day year : Int} (lower : yearStart year ≤ day)
    (upper : day < yearStart (year + 1)) : yearOf day = year := by
  have below := yearStart_yearOf_le day
  have above := lt_yearStart_yearOf day
  rcases Int.lt_trichotomy (yearOf day) year with less | same | more
  · have := yearStart_le (y := yearOf day + 1) (z := year) (by omega)
    omega
  · exact same
  · have := yearStart_le (y := year + 1) (z := yearOf day) (by omega)
    omega

theorem length_monthLengths (leap : Bool) : (monthLengths leap).length = 12 := rfl

theorem sum_monthLengths (leap : Bool) :
    (monthLengths leap).sum = if leap then 366 else 365 := by
  cases leap <;> rfl

theorem Civil.isValid_iff {c : Civil} : c.isValid ↔
    (1 ≤ c.month ∧ c.month ≤ 12) ∧ 1 ≤ c.day ∧ c.day ≤ monthLength (isLeap c.year) c.month := by
  simp [isValid, and_assoc]

theorem monthLength_eq {leap : Bool} {month : Nat} (h : month - 1 < (monthLengths leap).length) :
    monthLength leap month = (monthLengths leap)[month - 1] := by
  simp [monthLength, List.getD_eq_getElem?_getD, List.getElem?_eq_getElem h]

namespace Civil
variable {c : Civil}

/-- The days of its year before a valid date. -/
theorem exists_passed (valid : c.isValid) :
    ∃ h : c.month - 1 < (monthLengths (isLeap c.year)).length,
      c.day - 1 < (monthLengths (isLeap c.year))[c.month - 1] := by
  obtain ⟨⟨first, last⟩, one, most⟩ := isValid_iff.1 valid
  have h : c.month - 1 < (monthLengths (isLeap c.year)).length := by
    rw [length_monthLengths]
    omega
  rw [monthLength_eq h] at most
  exact ⟨h, by omega⟩

/-- A valid date lies in its year. -/
theorem dayNumber_bounds (valid : c.isValid) :
    yearStart c.year ≤ c.dayNumber ∧ c.dayNumber < yearStart (c.year + 1) := by
  obtain ⟨h, short⟩ := exists_passed valid
  obtain ⟨-, one, -⟩ := isValid_iff.1 valid
  have most := sum_take_add_le h
  rw [sum_monthLengths, ← daysBefore_eq] at most
  have next := yearStart_succ c.year
  have leap : ((if isLeap c.year then 366 else 365 : Nat) : Int) =
      if isLeap c.year then 366 else 365 := by split <;> rfl
  simp only [dayNumber]
  omega

/-- A valid date is read off its day number. -/
theorem civilOf_dayNumber (valid : c.isValid) : civilOf c.dayNumber = c := by
  obtain ⟨h, short⟩ := exists_passed valid
  obtain ⟨⟨first, -⟩, one, -⟩ := isValid_iff.1 valid
  obtain ⟨lower, upper⟩ := dayNumber_bounds valid
  have year := yearOf_eq lower upper
  have offset : dayOfYear c.dayNumber = daysBefore (isLeap c.year) c.month + (c.day - 1) := by
    rw [dayOfYear, year, dayNumber]
    omega
  have walked := locate_sum h short
  rw [← daysBefore_eq, ← offset] at walked
  obtain ⟨y, m, k⟩ := c
  simp only [civilOf, year, walked, mk.injEq, true_and]
  simp only at first one
  omega

end Civil

theorem isValid_civilOf (day : Int) : (civilOf day).isValid ∧ (civilOf day).dayNumber = day := by
  have inYear := dayOfYear_lt day
  rw [← sum_monthLengths] at inYear
  obtain ⟨passed, left, h, found, short, same⟩ := exists_locate inYear
  have month : passed + 1 - 1 = passed := by omega
  have lower := yearStart_yearOf_le day
  have read : civilOf day = ⟨yearOf day, passed + 1, left + 1⟩ := by
    simp only [civilOf, found]
  rw [read]
  constructor
  · have twelve := h
    rw [length_monthLengths] at twelve
    refine Civil.isValid_iff.2 ⟨by simp only; omega, by simp only; omega, ?_⟩
    simp only
    rw [monthLength_eq (by rw [month]; exact h)]
    simp only [month]
    omega
  · simp only [Civil.dayNumber, daysBefore_eq, month]
    simp only [dayOfYear] at same
    omega

/-- The days of the month that so many months, from January of year 0 on, come before. -/
def monthDays (index : Int) : Nat :=
  monthLength (isLeap (index / 12)) ((index % 12).toNat + 1)

namespace Date
variable {d e : Date} {year : Int} {month day : Nat}

/-- The calendar has at most one date of a year, month and day, and finds it. -/
theorem ofCivil?_eq_some_iff : ofCivil? year month day = some d ↔ d.civil = ⟨year, month, day⟩ := by
  simp only [ofCivil?, Option.ite_none_right_eq_some, ofNumber?_eq_some_iff]
  constructor
  · rintro ⟨valid, number⟩
    rw [civil, number, Civil.civilOf_dayNumber valid]
  · intro same
    obtain ⟨valid, number⟩ := isValid_civilOf d.number
    rw [← same]
    exact ⟨valid, number.symm⟩

theorem civil_eq (d : Date) : d.civil = ⟨d.year, d.month, d.day⟩ := rfl

theorem ofCivil?_civil (d : Date) : ofCivil? d.year d.month d.day = some d :=
  ofCivil?_eq_some_iff.2 d.civil_eq

theorem isValid_civil (d : Date) : d.civil.isValid := (isValid_civilOf d.number).1

theorem month_bounds (d : Date) : 1 ≤ d.month ∧ d.month ≤ 12 :=
  (Civil.isValid_iff.1 d.isValid_civil).1

theorem day_bounds (d : Date) : 1 ≤ d.day ∧ d.day ≤ monthLength (isLeap d.year) d.month :=
  (Civil.isValid_iff.1 d.isValid_civil).2

theorem number_bounds (d : Date) :
    yearStart d.year ≤ d.number ∧ d.number < yearStart (d.year + 1) :=
  ⟨yearStart_yearOf_le d.number, lt_yearStart_yearOf d.number⟩

/-- The years of the calendar. -/
theorem year_bounds (d : Date) : -262143 ≤ d.year ∧ d.year ≤ 262142 := by
  obtain ⟨lower, upper⟩ := d.number_bounds
  have first := d.first_le
  have last := d.le_last
  rw [firstDay_eq] at first
  rw [lastDay_eq] at last
  have early : d.year < -262143 → yearStart (d.year + 1) ≤ yearStart (-262143) :=
    fun less => yearStart_le (by omega)
  have late : 262142 < d.year → yearStart 262143 ≤ yearStart d.year :=
    fun more => yearStart_le (by omega)
  constructor <;> omega

/-- Every valid date of a year of the calendar is there. -/
theorem exists_ofCivil? (valid : Civil.isValid ⟨year, month, day⟩) (lower : -262143 ≤ year)
    (upper : year ≤ 262142) :
    ∃ d, ofCivil? year month day = some d ∧ d.civil = ⟨year, month, day⟩ := by
  obtain ⟨first, last⟩ := Civil.dayNumber_bounds valid
  simp only at first last
  have early := yearStart_le lower
  have late := yearStart_le (y := year + 1) (z := 262143) (by omega)
  rw [← firstDay_eq] at early
  have within := lastDay_eq
  have found : ofCivil? year month day =
      some ⟨Civil.dayNumber ⟨year, month, day⟩, by omega, by omega⟩ := by
    rw [ofCivil?, if_pos valid, ofNumber?_eq_some_iff]
  exact ⟨_, found, ofCivil?_eq_some_iff.1 found⟩

/-- A year before its end the calendar has the next year. -/
theorem year_lt_of_inside (inside : d.Inside 366) : d.year + 1 ≤ 262142 := by
  obtain ⟨lower, -⟩ := d.number_bounds
  have last := inside.2
  have next := yearStart_succ d.year
  rw [lastDay_eq] at last
  have late : 262142 < d.year + 1 → yearStart 262143 ≤ yearStart (d.year + 1) :=
    fun more => yearStart_le (by omega)
  split at next <;> omega

theorem monthIndex_eq (d : Date) : d.monthIndex = 12 * d.year + d.month - 1 := by
  have := d.month_bounds
  simp only [monthIndex]
  omega

theorem le_monthLength (leap : Bool) (h : month ≤ 12) (one : 1 ≤ month) :
    28 ≤ monthLength leap month := by
  have each : ∀ leap, ∀ m < 13, 1 ≤ m → 28 ≤ monthLength leap m := by decide
  exact each leap month (by omega) one

theorem le_monthDays (index : Int) : 28 ≤ monthDays index :=
  le_monthLength _ (by omega) (by omega)

/-- Every month has a first day. -/
theorem isValid_first (one : 1 ≤ month) (twelve : month ≤ 12) :
    Civil.isValid ⟨year, month, 1⟩ := by
  have days := le_monthLength (isLeap year) twelve one
  exact Civil.isValid_iff.2 ⟨⟨one, twelve⟩, Nat.le_refl 1, by simp only; omega⟩

theorem year_eq (d : Date) : d.year = d.monthIndex / 12 := by
  have := d.month_bounds
  rw [monthIndex_eq]
  omega

theorem month_eq (d : Date) : d.month = (d.monthIndex % 12).toNat + 1 := by
  have := d.month_bounds
  rw [monthIndex_eq]
  omega

/-- The month so many months on, and in it the day that the date has or the last one. -/
theorem addMonths?_eq_some_iff {count : Int} : d.addMonths? count = some e ↔
    e.monthIndex = d.monthIndex + count ∧ e.day = min d.day (monthDays (d.monthIndex + count)) := by
  simp only [addMonths?, ofCivil?_eq_some_iff, civil_eq, Civil.mk.injEq, monthDays]
  constructor
  · rintro ⟨year, month, day⟩
    refine ⟨?_, day⟩
    rw [monthIndex_eq e, year, month]
    omega
  · rintro ⟨index, day⟩
    rw [e.year_eq, e.month_eq, index]
    exact ⟨rfl, rfl, day⟩

/-- Counting months leads on to every month of a year of the calendar. -/
theorem exists_addMonths? (d : Date) (count : Int)
    (lower : -262143 ≤ (d.monthIndex + count) / 12)
    (upper : (d.monthIndex + count) / 12 ≤ 262142) : ∃ e, d.addMonths? count = some e := by
  have days := le_monthDays (d.monthIndex + count)
  have one := d.day_bounds.1
  have valid : Civil.isValid ⟨(d.monthIndex + count) / 12,
      ((d.monthIndex + count) % 12).toNat + 1, min d.day (monthDays (d.monthIndex + count))⟩ :=
    Civil.isValid_iff.2 ⟨by simp only; omega, Nat.le_min.2 ⟨one, by omega⟩, Nat.min_le_right _ _⟩
  obtain ⟨e, found, -⟩ := exists_ofCivil? valid lower upper
  exact ⟨e, found⟩

/-- Counting months fails only where no day of the month is in the calendar. -/
theorem addMonths?_eq_none_iff {count : Int} :
    d.addMonths? count = none ↔ ∀ e : Date, e.monthIndex ≠ d.monthIndex + count := by
  constructor
  · intro fails e index
    obtain ⟨lower, upper⟩ := e.year_bounds
    rw [e.year_eq, index] at lower upper
    obtain ⟨f, found⟩ := exists_addMonths? d count lower upper
    rw [fails] at found
    cases found
  · intro absent
    rw [Option.eq_none_iff_forall_ne_some]
    intro e found
    exact absent e (addMonths?_eq_some_iff.1 found).1

theorem monthIndex_bounds (d : Date) : -3145716 ≤ d.monthIndex ∧ d.monthIndex ≤ 3145715 := by
  have year := d.year_bounds
  rw [d.year_eq] at year
  omega

end Date

namespace Instant
variable {t : Instant}

/-- More months than can be counted lead out of the calendar. -/
theorem addMonths?_eq (t : Instant) (count : Int) :
    t.addMonths? count = (⟨·, t.time⟩) <$> t.date.addMonths? count := by
  by_cases many : maxMonths < count.natAbs
  · have outside : t.date.addMonths? count = none := by
      rw [Date.addMonths?_eq_none_iff]
      intro e index
      have here := t.date.monthIndex_bounds
      have there := e.monthIndex_bounds
      simp only [maxMonths] at many
      omega
    simp [addMonths?, many, outside]
  · have signed : (if 0 ≤ count then (count.natAbs : Int) else -count.natAbs) = count := by
      split <;> omega
    simp only [addMonths?, many, if_false, signed]
    exact (map_eq_pure_bind _ _).symm

/-- Years count twelve months each, be they too many or not. -/
theorem add?_year (t : Instant) (count : Int) : t.add? count .year = t.addMonths? (12 * count) := by
  simp only [add?, product?, Int.mul_comm count]
  split
  · rfl
  · rename_i wide
    have many : maxMonths < (12 * count).natAbs := by
      simp only [maxMonths]
      omega
    simp [addMonths?, many]

/-- The month after this one begins on its first day, if the calendar has that. -/
theorem startOfNextMonth?_eq (t : Instant) : t.startOfNextMonth? =
    (Date.ofCivil? ((t.date.monthIndex + 1) / 12) (((t.date.monthIndex + 1) % 12).toNat + 1) 1).map
      Date.midnight := by
  obtain ⟨lower, upper⟩ := t.date.year_bounds
  have month := t.date.month_bounds
  obtain ⟨first, begins, civil⟩ :=
    Date.exists_ofCivil? (Date.isValid_first month.1 month.2) lower upper
  rw [Date.civil_eq, Civil.mk.injEq] at civil
  obtain ⟨same_year, same_month, same_day⟩ := civil
  have index : first.monthIndex = t.date.monthIndex := by
    simp only [Date.monthIndex_eq, same_year, same_month]
  have days := Date.le_monthDays (t.date.monthIndex + 1)
  have one : min first.day (monthDays (t.date.monthIndex + 1)) = 1 := by omega
  rw [monthDays] at one
  simp only [startOfNextMonth?, begins, Date.addMonths?, index, one, Option.bind_eq_bind,
    Option.bind_some]
  exact Option.map_eq_bind.symm

/-- The next month begins at midnight on its first day. -/
theorem exists_startOfNextMonth? (room : t.date.Inside 366) :
    ∃ d : Date, t.startOfNextMonth? = some d.midnight ∧ d.monthIndex = t.date.monthIndex + 1 ∧
      d.day = 1 := by
  obtain ⟨lower, upper⟩ := t.date.year_bounds
  have next := Date.year_lt_of_inside room
  have month := t.date.month_bounds
  have index := t.date.monthIndex_eq
  have valid : Civil.isValid ⟨(t.date.monthIndex + 1) / 12,
      ((t.date.monthIndex + 1) % 12).toNat + 1, 1⟩ := Date.isValid_first (by omega) (by omega)
  obtain ⟨d, found, civil⟩ := Date.exists_ofCivil? valid (by omega) (by omega)
  rw [Date.civil_eq, Civil.mk.injEq] at civil
  obtain ⟨same_year, same_month, same_day⟩ := civil
  refine ⟨d, by rw [startOfNextMonth?_eq, found, Option.map_some], ?_, same_day⟩
  rw [Date.monthIndex_eq d, same_year, same_month]
  omega

/-- The next year begins at midnight on January 1. -/
theorem exists_startOfNextYear? (room : t.date.Inside 366) :
    ∃ d : Date, t.startOfNextYear? = some d.midnight ∧ d.civil = ⟨t.date.year + 1, 1, 1⟩ := by
  obtain ⟨lower, -⟩ := t.date.year_bounds
  obtain ⟨d, found, civil⟩ := Date.exists_ofCivil? (Date.isValid_first (Nat.le_refl 1) (by decide))
    (by omega) (Date.year_lt_of_inside room)
  exact ⟨d, by rw [startOfNextYear?, found, Option.map_some], civil⟩

/-- A year before its end the calendar has the instant one of any unit from days on later. -/
theorem exists_add?_one (room : t.date.Inside 366) {unit : TimeUnit} (long : unit.isClock = false) :
    ∃ i, t.add? 1 unit = some i := by
  obtain ⟨first, -⟩ := t.date.year_bounds
  have next := Date.year_lt_of_inside room
  have month := t.date.month_bounds
  have last := room.2
  have here := t.date.first_le
  have days : ∀ n : Int, 0 ≤ n → n ≤ 7 →
      ∃ i, t.shift? (n * secondsPerDay) = some i := by
    intro n lower upper
    have later : t.date.shift? n = some ⟨t.date.number + n, by omega, by omega⟩ :=
      Date.ofNumber?_eq_some_iff.2 rfl
    rw [shift?_days, TimeOfDay.carry_of_nonneg lower, Int.natCast_zero, Int.add_zero, later]
    exact ⟨_, rfl⟩
  have months : ∀ n : Int, 0 ≤ n → n ≤ 12 → ∃ i, t.addMonths? n = some i := by
    intro n lower upper
    obtain ⟨d, later⟩ := Date.exists_addMonths? t.date n
      (by rw [Date.monthIndex_eq]; omega) (by rw [Date.monthIndex_eq]; omega)
    exact ⟨_, by rw [addMonths?_eq, later]; rfl⟩
  cases unit with
  | minute | hour => cases long
  | day =>
    rw [add?_day]
    exact days 1 (by decide) (by decide)
  | week =>
    rw [add?_week]
    exact days 7 (by decide) (by decide)
  | month => exact months 1 (by decide) (by decide)
  | year =>
    rw [add?_year]
    exact months 12 (by decide) (by decide)

end Instant

end DatePhrase.Calendar
