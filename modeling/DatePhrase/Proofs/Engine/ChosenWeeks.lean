import DatePhrase.Proofs.Engine.InsideCalendar

/-! Weekdays of this, the next and the last week. A week goes from Sunday to Saturday, and of the
present date nothing counts but its week. Main statement: two weeks away from the ends of the calendar
every weekday of every choice of week is found at the present time of day, in the week so many weeks
on; setting a weekday forgets one set before and commutes with a move by weeks. The time of day fails
in leap seconds, and all of it in those that end a day. -/
namespace DatePhrase
open Calendar

namespace Engine
variable {week : WeekChoice} {day : Weekday} {index : Nat} {now i : Instant}

/-- The weekday that a count from Sunday on gives, around the week, in the chosen week. -/
structure WeekdayOf (week : WeekChoice) (index : Nat) (now i : Instant) : Prop where
  day : i.date.weekday.index = index % 7
  weeks : i.date.sunday = now.date.sunday + 7 * week.weeks

section Early
variable (early : ¬ now.time.EndsDay)
include early

theorem weekdayOf_inWeek (found : inWeek week (.ofIndex index) now = .ok i) :
    WeekdayOf week index now i := by
  have number := number_of_inWeek early found
  have sunday := sunday_of_inWeek early found
  have place := i.date.index_eq
  refine ⟨?_, sunday⟩
  rw [← Weekday.index_ofIndex]
  omega

/-- Seen from any day of the present week the chosen week is the same. -/
theorem exists_inWeek_of_sunday {other : Instant} (inside : now.date.Inside 14)
    (early' : ¬ other.time.EndsDay) (same : other.date.sunday = now.date.sunday)
    (found : inWeek week day now = .ok i) :
    ∃ j, inWeek week day other = .ok j ∧ j.date = i.date := by
  obtain ⟨lower, upper⟩ := inside
  have start := now.date.number_le
  have stop := now.date.sunday_le
  have start' := other.date.number_le
  have stop' := other.date.sunday_le
  have weeks := week.weeks_bounds
  have number := number_of_inWeek early found
  have first := i.date.first_le
  have last := i.date.le_last
  obtain ⟨near, moved⟩ := Instant.exists_move (t := other) (n := 7 * week.weeks)
    (by omega) (by omega)
  have sunday := Instant.sunday_of_move (TimeOfDay.carry_of_not_endsDay early') moved
  obtain ⟨j, set⟩ := Instant.exists_setWeekday (t := near) (w := day) (by omega) (by omega)
  have number' := Instant.number_of_setWeekday (Instant.not_endsDay_of_move early' moved) set
  refine ⟨j, by rw [inWeek_eq, moved]; exact set, ?_⟩
  rw [Date.ext_iff]
  omega

end Early

section Regular
variable (regular : now.time.leap = false)
include regular

/-- The weekdays of two chosen weeks are as many weeks apart as the weeks. -/
theorem move_of_weeks {later : WeekChoice} {j : Instant} (apart : later.weeks = week.weeks + 1)
    (found : inWeek week day now = .ok i) (found' : inWeek later day now = .ok j) :
    i.move 7 = .ok j := by
  have early := TimeOfDay.not_endsDay_of_regular regular
  have number := number_of_inWeek early found
  have number' := number_of_inWeek early found'
  have time := time_of_inWeek regular found
  rw [apart] at number'
  rw [Instant.move_eq_ok_iff_of_regular (time ▸ regular), time, time_of_inWeek regular found']
  exact ⟨by omega, rfl⟩

end Regular

/-- A weekday of this, the next or the last week, given by a count around the week, lies in the
present week from Sunday to Saturday or exactly one week off, and from any day of the present week
the same day is found. A leap second at the end of the day is left out. Outside leap seconds the
present time of day is kept besides, and the weekdays of the three weeks are seven days apart. Of
two weekdays set in turn the last one stays, and setting a weekday commutes with moving by weeks. -/
theorem inWeek_keeps_week (index : Nat) (now : Instant) (inside : now.date.Inside 14) :
    let day := Weekday.ofIndex index
    (¬ now.time.EndsDay → ∀ week, ∃ i, inWeek week day now = .ok i ∧ WeekdayOf week index now i ∧
      ∀ other : Instant, other.date.sunday = now.date.sunday → ¬ other.time.EndsDay →
        ∃ j, inWeek week day other = .ok j ∧ j.date = i.date) ∧
    (now.time.leap = false →
      (∀ week, ∃ i, inWeek week day now = .ok i ∧ i.time = now.time) ∧
      (∃ before present after, inWeek .preceding day now = .ok before ∧
        inWeek .current day now = .ok present ∧ inWeek .following day now = .ok after ∧
        before.move 7 = .ok present ∧ present.move 7 = .ok after) ∧
      (∀ earlier : Nat, ∃ i, now.setWeekday day = .ok i ∧
        (now.setWeekday (.ofIndex earlier) >>= (·.setWeekday day)) = .ok i) ∧
      ∀ week : WeekChoice, ∃ i, (now.move (7 * week.weeks) >>= (·.setWeekday day)) = .ok i ∧
        (now.setWeekday day >>= (·.move (7 * week.weeks))) = .ok i) := by
  intro day
  obtain ⟨set, (hset : now.setWeekday day = .ok set)⟩ := exists_inWeek .current day inside
  refine ⟨fun early week => ?_, fun regular => ⟨fun week => ?_, ?_, fun earlier => ?_, fun week => ?_⟩⟩
  · obtain ⟨i, found⟩ := exists_inWeek week day inside
    exact ⟨i, found, weekdayOf_inWeek early found, fun other same early' =>
      exists_inWeek_of_sunday early inside early' same found⟩
  · obtain ⟨i, found⟩ := exists_inWeek week day inside
    exact ⟨i, found, time_of_inWeek regular found⟩
  · obtain ⟨before, last⟩ := exists_inWeek .preceding day inside
    obtain ⟨present, this⟩ := exists_inWeek .current day inside
    obtain ⟨after, next⟩ := exists_inWeek .following day inside
    exact ⟨before, present, after, last, this, next, move_of_weeks regular rfl last this,
      move_of_weeks regular rfl this next⟩
  · obtain ⟨first, (hfirst : now.setWeekday (.ofIndex earlier) = .ok first)⟩ :=
      exists_inWeek .current (.ofIndex earlier) inside
    refine ⟨set, hset, ?_⟩
    rw [hfirst]
    exact (Instant.setWeekday_of_setWeekday regular hfirst day).trans hset
  · obtain ⟨i, found⟩ := exists_inWeek week day inside
    obtain ⟨near, moved, there⟩ := of_inWeek found
    refine ⟨i, by rw [← inWeek_eq, found], ?_⟩
    rw [hset]
    exact (Instant.setWeekday_of_move regular moved hset).symm.trans there

/-- Asked on the Saturday that ends the week, Sunday is six days back, or one day ahead in the next
week; asked on that Sunday, it is the same day. -/
theorem inWeek_keeps_week_saturday :
    let saturday : Instant := ⟨⟨20743, by decide, by decide⟩, ⟨23 * nanosPerHour, by decide, false⟩⟩
    let sunday : Instant := ⟨⟨20737, by decide, by decide⟩, .midnight⟩
    let next : Instant := ⟨⟨20744, by decide, by decide⟩, saturday.time⟩
    saturday.date.Inside 14 ∧ ¬ saturday.time.EndsDay ∧ saturday.time.leap = false ∧
      sunday.date.sunday = saturday.date.sunday ∧ ¬ sunday.time.EndsDay ∧
      inWeek .following (.ofIndex 7) saturday = .ok next ∧
      WeekdayOf .following 7 saturday next ∧ next.time = saturday.time ∧
      ∃ j, inWeek .following (.ofIndex 7) sunday = .ok j ∧ j.date = next.date := by
  intro saturday sunday next
  have inside : saturday.date.Inside 14 := by decide
  have early : ¬ saturday.time.EndsDay := by decide
  have early' : ¬ sunday.time.EndsDay := by decide
  have same : sunday.date.sunday = saturday.date.sunday := by decide
  have following : inWeek .following (.ofIndex 7) saturday = .ok next := by decide
  obtain ⟨weeks, times⟩ := inWeek_keeps_week 7 saturday inside
  obtain ⟨i, found, lies, others⟩ := weeks early .following
  obtain rfl : next = i := Except.ok.inj (following.symm.trans found)
  obtain ⟨j, again, kept⟩ := (times rfl).1 .following
  obtain rfl : next = j := Except.ok.inj (following.symm.trans again)
  exact ⟨inside, early, rfl, same, early', following, lies, kept, others sunday same early'⟩

/-- In the leap second that ended a Saturday, Monday of the same week is Tuesday at midnight. -/
theorem not_keeps_week_of_leap_second :
    ¬ ∀ (week : WeekChoice) (index : Nat) (now : Instant), now.date.Inside 14 →
      ∃ i, inWeek week (.ofIndex index) now = .ok i ∧ i.time = now.time ∧
        WeekdayOf week index now i := by
  intro keeps
  let saturday : Instant :=
    ⟨⟨17166, by decide, by decide⟩, ⟨nanosPerDay - 500000000, by decide, true⟩⟩
  let tuesday : Instant := ⟨⟨17162, by decide, by decide⟩, ⟨500000000, by decide, false⟩⟩
  obtain ⟨i, found, time, lies⟩ := keeps .current 1 saturday (by decide)
  have answer : inWeek .current (.ofIndex 1) saturday = .ok tuesday := by decide
  obtain rfl : tuesday = i := Except.ok.inj (answer.symm.trans found)
  exact absurd lies.day (by decide)

end Engine

end DatePhrase
