import DatePhrase.Proofs.Calendar.WholeWeeks
import DatePhrase.Proofs.Engine.InsideCalendar

/-! The same question some weeks later. Weekdays, ranges of days and offsets of fixed length depend
on the reference through its weekday and its distance alone, not through its place in the month or
the year. Main statement: two weeks away from the ends of the calendar, asking any number of weeks
later moves a date so recognized, and every range, by as many weeks. In a leap second the former
fails, and the latter where it ends the day. -/
namespace DatePhrase
open Text Calendar

namespace DateRange
variable {start stop start' stop' : Date} {now later : Instant} {n weeks : Int}

/-- The second range is the first one some days later, day for day. -/
structure Moved (n : Int) (r later : DateRange) : Prop where
  start : r.start.move n = .ok later.start
  stop : r.stop.move n = .ok later.stop
  days : later.days.map (·.number) = r.days.map (·.number + n)

/-- The calendar's last day, which no range would list, is out of reach of both. -/
theorem moved_between (listed : stop.number < lastDay) (listed' : stop'.number < lastDay)
    (starts : start'.number = start.number + n) (stops : stop'.number = stop.number + n) :
    (between start stop).Moved n (between start' stop') where
  start := Date.move_eq_ok_iff.2 starts
  stop := Date.move_eq_ok_iff.2 stops
  days := by
    have length : stop'.number - start'.number = stop.number - start.number := by omega
    have shifted : (start.upTo stop).map (·.number + n) =
        ((start.upTo stop).map (·.number)).map (· + n) := by
      rw [List.map_map]
      rfl
    simp only [between]
    rw [shifted, Date.numbers_upTo listed, Date.numbers_upTo listed', length, List.map_map]
    refine List.map_congr_left fun k _ => ?_
    simp only [Function.comp_apply]
    omega

section Early
variable (early : ¬ now.time.EndsDay) (apart : now.move (7 * weeks) = .ok later)
include early apart

theorem number_of_weeks : later.date.number = now.date.number + 7 * weeks := by
  have number := (Instant.move_eq_ok_iff.1 apart).1
  rw [TimeOfDay.carry_of_not_endsDay early] at number
  omega

variable (inside : now.date.Inside 14) (inside' : later.date.Inside 14)
include inside inside'

theorem moved_ofWeekdays (first last : Weekday) :
    ∃ r r', ofWeekdays first last now = .ok r ∧ ofWeekdays first last later = .ok r' ∧
      r.Moved (7 * weeks) r' := by
  have days_apart := number_of_weeks early apart
  obtain ⟨start, stop, found, days⟩ := ofWeekdays_eq_ok first last now inside
  obtain ⟨start', stop', found', days'⟩ := ofWeekdays_eq_ok first last later inside'
  obtain ⟨starts, stops⟩ := days.onOrAfter early
  obtain ⟨starts', stops'⟩ := days'.onOrAfter (Instant.not_endsDay_of_move early apart)
  rw [Date.onOrAfter_eq_ok_iff] at starts stops starts' stops'
  have start_ahead := now.date.weekday.daysUntil_lt first
  have stop_ahead := start.weekday.daysUntil_lt last
  rw [Date.weekday_of_weeks days_apart] at starts'
  have starts_apart : start'.number = start.number + 7 * weeks := by omega
  rw [Date.weekday_of_weeks starts_apart] at stops'
  obtain ⟨-, upper⟩ := inside
  obtain ⟨-, upper'⟩ := inside'
  refine ⟨_, _, found, found', ?_⟩
  apply moved_between <;> omega

theorem moved_nextWeek (weekStart : Weekday) :
    ∃ r r', nextWeek weekStart now.date = .ok r ∧ nextWeek weekStart later.date = .ok r' ∧
      r.Moved (7 * weeks) r' := by
  have days_apart := number_of_weeks early apart
  obtain ⟨start, stop, found, next, stops⟩ := nextWeek_eq_ok weekStart now.date inside
  obtain ⟨start', stop', found', next', stops'⟩ := nextWeek_eq_ok weekStart later.date inside'
  have starts_apart := Date.nextAfter_of_weeks days_apart next next'
  obtain ⟨-, soon, -⟩ := Date.nextAfter_eq_ok_iff_of_week.1 next
  obtain ⟨-, upper⟩ := inside
  obtain ⟨-, upper'⟩ := inside'
  refine ⟨_, _, found, found', ?_⟩
  apply moved_between <;> omega

/-- Whether a text names a range does not depend on when it is read. -/
theorem moved_ofText (v : Vocabulary) (text : String) (weekStart : Weekday) :
    ∃ r r', ofText v text weekStart now = .ok r ∧ ofText v text weekStart later = .ok r' ∧
      Option.Rel (Moved (7 * weeks)) r r' := by
  obtain ⟨first, last, -, range⟩ | range | range := ofText_cases v text weekStart
  · obtain ⟨r, r', found, found', moved⟩ := moved_ofWeekdays early apart inside inside' first last
    exact ⟨some r, some r', by rw [range, found]; rfl, by rw [range, found']; rfl, .some moved⟩
  · obtain ⟨r, r', found, found', moved⟩ := moved_nextWeek early apart inside inside' weekStart
    exact ⟨some r, some r', by rw [range, found]; rfl, by rw [range, found']; rfl, .some moved⟩
  · exact ⟨none, none, range now, range later, .none⟩

end Early

end DateRange

/-- What the phrase names is counted in units of fixed length or in weekdays, by no grammar. -/
def Recognized.IsExact : Recognized → Prop
  | immediate _ => True
  | combinedOffset first second => first.unit.IsExact ∧ second.unit.IsExact
  | relativeOffset offset => offset.unit.IsExact
  | weekdayRange _ _ => True
  | weekdayAt _ _ _ => False
  | weekday _ _ => True

namespace Engine
variable {now later : Instant} {weeks : Int}

section Regular
variable (regular : now.time.leap = false) (apart : now.move (7 * weeks) = .ok later)
include regular apart

theorem move_of_inWeek {week : WeekChoice} {day : Weekday} {i j : Instant}
    (found : inWeek week day now = .ok i) (found' : inWeek week day later = .ok j) :
    i.move (7 * weeks) = .ok j := by
  have time := ((Instant.move_eq_ok_iff_of_regular regular).1 apart).2
  have sundays := Instant.sunday_of_move_of_regular regular apart
  have early := TimeOfDay.not_endsDay_of_regular regular
  have number := number_of_inWeek early found
  have number' := number_of_inWeek (time ▸ early) found'
  have kept := time_of_inWeek regular found
  have kept' := time_of_inWeek (time ▸ regular) found'
  rw [Instant.move_eq_ok_iff_of_regular (kept ▸ regular)]
  exact ⟨by omega, kept'.trans (time.trans kept.symm)⟩

/-- The points of a phrase at two instants whole weeks apart are as many weeks apart. -/
theorem move_of_point (e : Engine) (weekStart : Weekday) {phrase : Recognized} {i j : Instant}
    (precise : phrase.IsExact) (inside : now.date.Inside 14) (inside' : later.date.Inside 14)
    (found : (e.point weekStart now phrase).outcome = .ok (some i))
    (found' : (e.point weekStart later phrase).outcome = .ok (some j)) :
    i.move (7 * weeks) = .ok j := by
  cases phrase with
  | immediate word =>
    have days : TimeUnit.day.IsExact := by decide
    have by_days (count : Int) (here : now.addOffset? ⟨count, .day⟩ = some i)
        (there : later.addOffset? ⟨count, .day⟩ = some j) : i.move (7 * weeks) = .ok j :=
      Instant.move_of_addOffset? days regular apart here there
    cases word with
    | now | today =>
      cases found
      cases found'
      exact apart
    | tomorrow => exact by_days 1 (Except.ok.inj found) (Except.ok.inj found')
    | yesterday => exact by_days (-1) (Except.ok.inj found) (Except.ok.inj found')
  | combinedOffset first second =>
    obtain ⟨near, first_found, found⟩ := Option.bind_eq_some_iff.1 (Except.ok.inj found)
    obtain ⟨near', first_found', found'⟩ := Option.bind_eq_some_iff.1 (Except.ok.inj found')
    have between := Instant.move_of_addOffset? precise.1 regular apart first_found first_found'
    have regular' := Instant.regular_of_addOffset? precise.1 regular first_found
    exact Instant.move_of_addOffset? precise.2 regular' between found found'
  | relativeOffset offset =>
    exact Instant.move_of_addOffset? precise regular apart (Except.ok.inj found)
      (Except.ok.inj found')
  | weekdayRange first last =>
    obtain ⟨r, r', range, range', moved⟩ := DateRange.moved_ofWeekdays
      (TimeOfDay.not_endsDay_of_regular regular) apart inside inside' first last
    rw [outcome_point_weekdayRange, range] at found
    rw [outcome_point_weekdayRange, range'] at found'
    cases found
    cases found'
    have time := ((Instant.move_eq_ok_iff_of_regular regular).1 apart).2
    have start : (⟨r.start, now.time⟩ : Instant).time.leap = false := regular
    rw [Instant.move_eq_ok_iff_of_regular start]
    exact ⟨Date.move_eq_ok_iff.1 moved.start, time⟩
  | weekdayAt week day rest => exact precise.elim
  | weekday week day =>
    obtain ⟨a, here⟩ := exists_inWeek week day inside
    obtain ⟨b, there⟩ := exists_inWeek week day inside'
    rw [outcome_point_weekday, here] at found
    rw [outcome_point_weekday, there] at found'
    cases found
    cases found'
    exact move_of_inWeek regular apart here there

end Regular

/-- Asked any number of weeks later, an engine gives a date that needs neither grammars nor months
as many weeks later, unless asked first in a leap second; and it finds a range exactly where it found
one, moved by as many weeks, unless asked first in a leap second that ends a day. -/
theorem answers_of_weeks (e : Engine) (text : String) (preference : WeekStart)
    (now later : Instant) (weeks : Int) (apart : now.move (7 * weeks) = .ok later)
    (inside : now.date.Inside 14) (inside' : later.date.Inside 14) :
    (now.time.leap = false → ∀ phrase i j,
      e.vocabulary.recognize (normalize text) = some phrase → phrase.IsExact →
      (e.point (e.weekStart preference) now phrase).outcome = .ok (some i) →
      (e.point (e.weekStart preference) later phrase).outcome = .ok (some j) →
      (e.date text preference now).outcome = .ok i ∧
        (e.date text preference later).outcome = .ok j ∧ i.move (7 * weeks) = .ok j) ∧
    (¬ now.time.EndsDay →
      ∃ r r', e.range text preference now = .ok r ∧ e.range text preference later = .ok r' ∧
        Option.Rel (DateRange.Moved (7 * weeks)) r r') := by
  refine ⟨fun regular phrase i j claimed precise here there => ⟨?_, ?_, ?_⟩, fun early => ?_⟩
  · exact date_of_point (by rw [recognizedPoint_of_some claimed, here])
  · exact date_of_point (by rw [recognizedPoint_of_some claimed, there])
  · exact move_of_point regular apart e _ precise inside inside' here there
  · exact DateRange.moved_ofText early apart inside inside' e.vocabulary (normalize text)
      (e.weekStart preference)

/-- Four thousand weeks back, over many leap years, "from Saturday to Saturday" names a day as many
weeks earlier. -/
theorem answers_of_weeks_back :
    let t := ((Table.empty.insert "en" "from" "from").insert "en" "to" "to").insert "en"
      "saturday" "saturday"
    let e := ofPool t ["en"] []
    let text := "From Saturday to Saturday"
    let friday : Instant := ⟨⟨20742, by decide, by decide⟩, .midnight⟩
    let earlier : Instant := ⟨⟨-7258, by decide, by decide⟩, .midnight⟩
    let saturday : Instant := ⟨⟨20743, by decide, by decide⟩, .midnight⟩
    let saturday' : Instant := ⟨⟨-7257, by decide, by decide⟩, .midnight⟩
    let r : DateRange := .between saturday.date saturday.date
    let r' : DateRange := .between saturday'.date saturday'.date
    friday.move (7 * -4000) = .ok earlier ∧ friday.date.Inside 14 ∧ earlier.date.Inside 14 ∧
      friday.time.leap = false ∧ ¬ friday.time.EndsDay ∧
      e.vocabulary.recognize (normalize text) = some (.weekdayRange .saturday .saturday) ∧
      (e.date text .localeDefault friday).outcome = .ok saturday ∧
      (e.date text .localeDefault earlier).outcome = .ok saturday' ∧
      saturday.move (7 * -4000) = .ok saturday' ∧
      e.range text .localeDefault friday = .ok (some r) ∧
      e.range text .localeDefault earlier = .ok (some r') ∧ r.Moved (7 * -4000) r' := by
  intro t e text friday earlier saturday saturday' r r'
  have apart : friday.move (7 * -4000) = .ok earlier := by decide
  have inside : friday.date.Inside 14 := by decide
  have inside' : earlier.date.Inside 14 := by decide
  have early : ¬ friday.time.EndsDay := by decide
  have claimed : e.vocabulary.recognize (normalize text) =
      some (.weekdayRange .saturday .saturday) := by decide +kernel
  have here : (e.point (e.weekStart .localeDefault) friday
      (.weekdayRange .saturday .saturday)).outcome = .ok (some saturday) := by decide +kernel
  have there : (e.point (e.weekStart .localeDefault) earlier
      (.weekdayRange .saturday .saturday)).outcome = .ok (some saturday') := by decide +kernel
  have range : e.range text .localeDefault friday = .ok (some r) := by decide +kernel
  have range' : e.range text .localeDefault earlier = .ok (some r') := by decide +kernel
  obtain ⟨dates, ranges⟩ :=
    answers_of_weeks e text .localeDefault friday earlier (-4000) apart inside inside'
  obtain ⟨date, date', moved⟩ := dates rfl _ saturday saturday' claimed trivial here there
  obtain ⟨found, found', first, second, days⟩ := ranges early
  obtain rfl : some r = found := Except.ok.inj (range.symm.trans first)
  obtain rfl : some r' = found' := Except.ok.inj (range'.symm.trans second)
  obtain days | - := days
  exact ⟨apart, inside, inside', rfl, early, claimed, date, date', moved, first, second, days⟩

/-- In the leap second that ended a Saturday, "from monday to monday" begins on a Tuesday, and a week
later on a Monday. A week before, tomorrow is half a second past midnight, as it is not from then. -/
theorem not_answers_of_leap_second :
    (¬ ∀ (e : Engine) (text : String) (preference : WeekStart) (now later : Instant) (weeks : Int)
        (phrase : Recognized) (i j : Instant), now.move (7 * weeks) = .ok later →
      now.date.Inside 14 → later.date.Inside 14 →
      e.vocabulary.recognize (normalize text) = some phrase → phrase.IsExact →
      (e.point (e.weekStart preference) now phrase).outcome = .ok (some i) →
      (e.point (e.weekStart preference) later phrase).outcome = .ok (some j) →
      i.move (7 * weeks) = .ok j) ∧
    ¬ ∀ (e : Engine) (text : String) (preference : WeekStart) (now later : Instant) (weeks : Int)
        (r r' : DateRange), now.move (7 * weeks) = .ok later →
      now.date.Inside 14 → later.date.Inside 14 → e.range text preference now = .ok (some r) →
      e.range text preference later = .ok (some r') → r.Moved (7 * weeks) r' := by
  let saturday : Instant :=
    ⟨⟨17166, by decide, by decide⟩, ⟨nanosPerDay - 500000000, by decide, true⟩⟩
  have inside : saturday.date.Inside 14 := by decide
  constructor
  · intro moves
    let e := ofPool (Table.empty.insert "en" "tomorrow" "tomorrow") ["en"] []
    let earlier : Instant := ⟨⟨17160, by decide, by decide⟩, ⟨500000000, by decide, false⟩⟩
    let sunday : Instant :=
      ⟨⟨17167, by decide, by decide⟩, ⟨nanosPerDay - 500000000, by decide, false⟩⟩
    let monday : Instant := ⟨⟨17161, by decide, by decide⟩, earlier.time⟩
    have moved := moves e "tomorrow" .localeDefault saturday earlier (-1) (.immediate .tomorrow)
      sunday monday (by decide) inside (by decide) (by decide +kernel) trivial
      (by decide +kernel) (by decide +kernel)
    exact absurd moved (by decide)
  · intro moves
    let t := ((Table.empty.insert "en" "from" "from").insert "en" "to" "to").insert "en"
      "monday" "monday"
    let e := ofPool t ["en"] []
    let later : Instant :=
      ⟨⟨17173, by decide, by decide⟩, ⟨nanosPerDay - 500000000, by decide, false⟩⟩
    let tuesday : Date := ⟨17169, by decide, by decide⟩
    let monday : Date := ⟨17175, by decide, by decide⟩
    have moved := moves e "from monday to monday" .localeDefault saturday later 1
      (.between tuesday tuesday) (.between monday monday) (by decide) inside (by decide)
      (by decide +kernel) (by decide +kernel)
    exact absurd moved.start (by decide)

end Engine

end DatePhrase
