import DatePhrase.Engine
import DatePhrase.Proofs.Calendar.DaysAhead
import DatePhrase.Proofs.Phrase.Ranges

/-! Which days a text can name as a range. Main statement: two weeks away from the ends of the
calendar every range begins within a week from today, has at most seven days and lists each of
them; the coming week is seven days from the next day on which weeks start. -/
namespace DatePhrase
open Calendar

namespace DateRange
variable {v : Vocabulary} {text : String} {weekStart : Weekday} {now : Instant} {today : Date}

/-- A range that begins within a week from `today`, has at most seven days and lists each of them
in order. -/
structure WithinWeek (today : Date) (r : DateRange) : Prop where
  from_today : today ≤ r.start
  soon : r.start.number ≤ today.number + 7
  ordered : r.start ≤ r.stop
  short : r.stop.number ≤ r.start.number + 6
  listed : r.days.map (·.number) =
    (List.range (r.stop.number - r.start.number + 1).toNat).map fun n : Nat => r.start.number + n

theorem WithinWeek.length_days {r : DateRange} (within : r.WithinWeek today) :
    (r.days.length : Int) = r.stop.number - r.start.number + 1 := by
  have ordered : r.start.number ≤ r.stop.number := within.ordered
  have count : r.days.length = (r.stop.number - r.start.number + 1).toNat := by
    simpa using congrArg List.length within.listed
  omega

/-- A day of the list is as many days behind the first one as its place says. -/
theorem WithinWeek.number_of_day {r : DateRange} (within : r.WithinWeek today) {i : Nat}
    {d : Date} (day : r.days[i]? = some d) : d.number = r.start.number + i := by
  have number := congrArg (·[i]?) within.listed
  rw [List.getElem?_map, day, List.getElem?_map, Option.map_some] at number
  obtain ⟨n, place, same⟩ := Option.map_eq_some_iff.1 number.symm
  obtain ⟨_, rfl⟩ := List.getElem?_eq_some_iff.1 place
  rw [← same, List.getElem_range]

/-- The calendar's last day, which no range would list, is out of reach. -/
theorem withinWeek_between {start stop : Date} (inside : today.Inside 14)
    (from_today : today.number ≤ start.number) (soon : start.number ≤ today.number + 7)
    (ordered : start.number ≤ stop.number) (short : stop.number ≤ start.number + 6) :
    (between start stop).WithinWeek today := by
  have upper := inside.2
  exact ⟨from_today, soon, ordered, short, Date.numbers_upTo (by omega)⟩

theorem withinWeek_ofWeekdays (first last : Weekday) (inside : now.date.Inside 14) :
    ∃ r, ofWeekdays first last now = .ok r ∧ r.WithinWeek now.date := by
  obtain ⟨start, stop, found, days⟩ := ofWeekdays_eq_ok first last now inside
  have soon := days.soon
  exact ⟨between start stop, found,
    withinWeek_between inside days.from_today (by omega) days.ordered days.short⟩

theorem withinWeek_nextWeek (weekStart : Weekday) (inside : today.Inside 14) :
    ∃ r, nextWeek weekStart today = .ok r ∧ r.WithinWeek today ∧
      today.FirstAfter weekStart r.start ∧ r.days.length = 7 := by
  obtain ⟨start, stop, found, next, stop_number⟩ := nextWeek_eq_ok weekStart today inside
  obtain ⟨after, soon, -⟩ := Date.nextAfter_eq_ok_iff_of_week.1 next
  have within : (between start stop).WithinWeek today := by
    apply withinWeek_between inside <;> omega
  have count := within.length_days
  refine ⟨between start stop, found, within, Date.nextAfter_eq_ok_iff_firstAfter.1 next, ?_⟩
  simp only [between] at count ⊢
  omega

/-- A text has a range or none, and which of the two ways it was read tells where it begins. -/
theorem ofText_eq_ok (v : Vocabulary) (text : String) (weekStart : Weekday)
    (inside : now.date.Inside 14) :
    ∃ found, ofText v text weekStart now = .ok found ∧ ∀ r, found = some r →
      r.WithinWeek now.date ∧ (v.recognizeAs text .weekdayRange = none →
        now.date.FirstAfter weekStart r.start ∧ r.days.length = 7) := by
  obtain ⟨first, last, recognized, range⟩ | range | range := ofText_cases v text weekStart
  · obtain ⟨r, found, within⟩ := withinWeek_ofWeekdays first last inside
    refine ⟨some r, by rw [range, found]; rfl, ?_⟩
    rintro _ ⟨⟩
    refine ⟨within, fun unread => ?_⟩
    rw [recognized] at unread
    cases unread
  · obtain ⟨r, found, within, next, seven⟩ := withinWeek_nextWeek weekStart inside
    refine ⟨some r, by rw [range, found]; rfl, ?_⟩
    rintro _ ⟨⟩
    exact ⟨within, fun _ => ⟨next, seven⟩⟩
  · refine ⟨none, range now, ?_⟩
    rintro _ ⟨⟩

end DateRange

namespace Engine

/-- A text has a range or none. A range begins on one of the eight days from today on, has one to
seven days and lists each of them in order. One that is no range between weekdays is the seven days
from the first day after today on which weeks start. -/
theorem range_shape (e : Engine) (text : String) (preference : WeekStart) (now : Instant)
    (inside : now.date.Inside 14) :
    ∃ found, e.range text preference now = .ok found ∧ ∀ r, found = some r →
      r.WithinWeek now.date ∧ 1 ≤ r.days.length ∧ r.days.length ≤ 7 ∧
      (e.vocabulary.recognizeAs (normalize text) .weekdayRange = none →
        now.date.FirstAfter (e.weekStart preference) r.start ∧ r.days.length = 7) := by
  obtain ⟨found, answer, shape⟩ := DateRange.ofText_eq_ok e.vocabulary (normalize text)
    (e.weekStart preference) inside
  refine ⟨found, answer, fun r named => ?_⟩
  obtain ⟨within, coming⟩ := shape r named
  have count := within.length_days
  have ordered : r.start.number ≤ r.stop.number := within.ordered
  have short := within.short
  exact ⟨within, by omega, by omega, coming⟩

/-- On a Friday the coming English week begins on the next Sunday. -/
theorem range_shape_nextWeek :
    let t := (Table.empty.insert "en" "week" "week").insert "en" "next" "next"
    let e := ofPool t ["en"] []
    let friday : Instant := ⟨⟨20742, by decide, by decide⟩, .midnight⟩
    let week : DateRange := .between ⟨20744, by decide, by decide⟩ ⟨20750, by decide, by decide⟩
    friday.date.Inside 14 ∧ e.range "Next week" .localeDefault friday = .ok (some week) ∧
      e.vocabulary.recognizeAs (normalize "Next week") .weekdayRange = none ∧
      week.WithinWeek friday.date ∧ friday.date.FirstAfter .sunday week.start ∧
      week.days.length = 7 := by
  intro t e friday week
  have inside : friday.date.Inside 14 := by decide
  have answer : e.range "Next week" .localeDefault friday = .ok (some week) := by decide +kernel
  have unread : e.vocabulary.recognizeAs (normalize "Next week") .weekdayRange = none := by
    decide +kernel
  obtain ⟨found, same, shape⟩ := range_shape e "Next week" .localeDefault friday inside
  obtain rfl : found = some week := Except.ok.inj (same.symm.trans answer)
  obtain ⟨within, -, -, coming⟩ := shape week rfl
  obtain ⟨next, seven⟩ := coming unread
  exact ⟨inside, answer, unread, within, next, seven⟩

end Engine

end DatePhrase
