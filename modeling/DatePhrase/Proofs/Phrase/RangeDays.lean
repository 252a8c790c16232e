import DatePhrase.Proofs.Calendar.DaysAhead
import DatePhrase.Proofs.Phrase.Ranges

/-! Which days a range has. Main statements: a range between weekdays is the first stretch from the
one to the other from today on, and the days of a range are all days from its start to its end, one
by one, save the calendar's last day, which no list of days has. -/
namespace DatePhrase
open Calendar

namespace Calendar.Date
variable {start stop d : Date} {i : Nat}

theorem length_upTo (start stop : Date) : (start.upTo stop).length =
    (min stop.number (lastDay - 1) - start.number + 1).toNat := by
  simpa using congrArg List.length (numbers_upTo_eq start stop)

/-- A run of days counts on from its start, up to its end or the day before the calendar's last. -/
theorem getElem?_upTo_eq_some_iff : (start.upTo stop)[i]? = some d ↔
    d.number = start.number + i ∧ d ≤ stop ∧ d.number < lastDay := by
  have length := length_upTo start stop
  rw [le_iff]
  by_cases listed : i < (start.upTo stop).length
  · have place := congrArg (·[i]?) (numbers_upTo_eq start stop)
    simp only [List.getElem?_map, List.getElem?_eq_getElem listed,
      List.getElem?_range (length ▸ listed), Option.map_some, Option.some_inj] at place
    rw [List.getElem?_eq_getElem listed, Option.some_inj, Date.ext_iff]
    omega
  · rw [List.getElem?_eq_none (Nat.not_lt.1 listed)]
    constructor
    · nofun
    · omega

theorem mem_upTo_iff : d ∈ start.upTo stop ↔ start ≤ d ∧ d ≤ stop ∧ d.number < lastDay := by
  simp only [List.mem_iff_getElem?, getElem?_upTo_eq_some_iff, le_iff]
  constructor
  · rintro ⟨i, number, listed⟩
    exact ⟨by omega, listed⟩
  · rintro ⟨reached, listed⟩
    exact ⟨(d.number - start.number).toNat, by omega, listed⟩

end Calendar.Date

namespace DateRange

/-- A range between weekdays, each given by a count from Sunday on around the week, begins on the
first such weekday from today on and ends on the first such weekday from its start on, unless today
ends with the present leap second. -/
theorem ofWeekdays_first_stretch (first last : Nat) (now : Instant) (inside : now.date.Inside 14)
    (early : ¬ now.time.EndsDay) :
    ∃ start stop,
      ofWeekdays (.ofIndex first) (.ofIndex last) now = .ok (between start stop) ∧
      now.date.FirstFrom (.ofIndex first) start ∧ start.FirstFrom (.ofIndex last) stop ∧
      now.date.onOrAfter (.ofIndex first) = .ok start ∧
      start.onOrAfter (.ofIndex last) = .ok stop ∧
      start.weekday.index = first % 7 ∧ stop.weekday.index = last % 7 := by
  obtain ⟨start, stop, found, days⟩ :=
    ofWeekdays_eq_ok (.ofIndex first) (.ofIndex last) now inside
  obtain ⟨opens, closes⟩ := days.onOrAfter early
  have from_today := Date.onOrAfter_eq_ok_iff_firstFrom.1 opens
  have from_start := Date.onOrAfter_eq_ok_iff_firstFrom.1 closes
  refine ⟨start, stop, found, from_today, from_start, opens, closes, ?_, ?_⟩
  · rw [from_today.falls, Weekday.index_ofIndex]
  · rw [from_start.falls, Weekday.index_ofIndex]

/-- Asked on a Friday, the stretch from Thursday to Monday lies in the next week and the one after
it, by whichever counts the two are named. -/
theorem ofWeekdays_first_stretch_friday :
    let friday : Instant := ⟨⟨20742, by decide, by decide⟩, .midnight⟩
    let thursday : Date := ⟨20748, by decide, by decide⟩
    let monday : Date := ⟨20752, by decide, by decide⟩
    friday.date.Inside 14 ∧ ¬ friday.time.EndsDay ∧
      ofWeekdays (.ofIndex 4) (.ofIndex 4294967293) friday = .ok (between thursday monday) ∧
      friday.date.FirstFrom .thursday thursday ∧ thursday.FirstFrom .monday monday := by
  intro friday thursday monday
  have inside : friday.date.Inside 14 := by decide
  have early : ¬ friday.time.EndsDay := by decide
  obtain ⟨start, stop, found, opens, closes, -⟩ :=
    ofWeekdays_first_stretch 4 4294967293 friday inside early
  have stretch : ofWeekdays (.ofIndex 4) (.ofIndex 4294967293) friday =
      .ok (between thursday monday) := by decide +kernel
  have same := Except.ok.inj (stretch.symm.trans found)
  obtain rfl : thursday = start := congrArg DateRange.start same
  obtain rfl : monday = stop := congrArg DateRange.stop same
  exact ⟨inside, early, stretch, opens, closes⟩

/-- In the leap second that ended a Saturday, the stretch from Monday to Friday begins on a Tuesday:
going back to Monday loses a day. -/
theorem not_first_stretch_of_leap_second :
    ¬ ∀ (first last : Nat) (now : Instant), now.date.Inside 14 → ∃ start stop,
      ofWeekdays (.ofIndex first) (.ofIndex last) now = .ok (between start stop) ∧
      now.date.onOrAfter (.ofIndex first) = .ok start ∧
      start.onOrAfter (.ofIndex last) = .ok stop := by
  intro stretch
  let saturday : Instant :=
    ⟨⟨17166, by decide, by decide⟩, ⟨nanosPerDay - 500000000, by decide, true⟩⟩
  let monday : Date := ⟨17168, by decide, by decide⟩
  let tuesday : Date := ⟨17169, by decide, by decide⟩
  obtain ⟨start, stop, found, opens, -⟩ := stretch 1 5 saturday (by decide)
  have answer : (·.start) <$> ofWeekdays (.ofIndex 1) (.ofIndex 5) saturday = .ok tuesday := by
    decide +kernel
  have first : saturday.date.onOrAfter (.ofIndex 1) = .ok monday := by decide
  rw [found] at answer
  have begins : start = tuesday := Except.ok.inj answer
  have begins' : monday = start := Except.ok.inj (first.symm.trans opens)
  exact absurd (begins'.trans begins) (by decide)

/-- The days of a range count on from its start one by one, and there are none if it ends before.
They end with the end of the range, unless that is the calendar's last day, which is left out. -/
theorem days_between (start stop : Date) :
    (stop < start → start.upTo stop = []) ∧
    (∀ i : Nat, ∀ h : i < (start.upTo stop).length, start.move i = .ok (start.upTo stop)[i]) ∧
    (start ≤ stop → stop.number < lastDay →
      ((start.upTo stop).length : Int) = stop.number - start.number + 1 ∧
      (start.upTo stop).head? = some start ∧ (start.upTo stop).getLast? = some stop ∧
      start ∈ (between start stop).days ∧ stop ∈ (between start stop).days) ∧
    (start ≤ stop → stop.number = lastDay →
      ((start.upTo stop).length : Int) = stop.number - start.number ∧
      stop ∉ (between start stop).days) := by
  have length := Date.length_upTo start stop
  have lower := start.first_le
  refine ⟨fun before => ?_, fun i listed => ?_, fun ordered listed => ?_, fun ordered final => ?_⟩
  · rw [Date.lt_iff] at before
    exact List.length_eq_zero_iff.1 (by omega)
  · have place := Date.getElem?_upTo_eq_some_iff.1 (List.getElem?_eq_getElem listed)
    exact Date.move_eq_ok_iff.2 place.1
  · rw [Date.le_iff] at ordered
    have count : ((start.upTo stop).length : Int) = stop.number - start.number + 1 := by omega
    have opens : (start.upTo stop)[0]? = some start :=
      Date.getElem?_upTo_eq_some_iff.2 ⟨by omega, ordered, by omega⟩
    have closes : (start.upTo stop)[(start.upTo stop).length - 1]? = some stop :=
      Date.getElem?_upTo_eq_some_iff.2 ⟨by omega, Int.le_refl _, listed⟩
    exact ⟨count, by rw [List.head?_eq_getElem?, opens], by rw [List.getLast?_eq_getElem?, closes],
      List.mem_of_getElem? opens, List.mem_of_getElem? closes⟩
  · rw [Date.le_iff] at ordered
    refine ⟨by omega, fun listed => ?_⟩
    have before := (Date.mem_upTo_iff.1 listed).2.2
    omega

/-- The five days around the leap day of 2028. -/
theorem days_between_leap :
    let start : Date := ⟨21241, by decide, by decide⟩
    let stop : Date := ⟨21245, by decide, by decide⟩
    start ≤ stop ∧ stop.number < lastDay ∧ (start.upTo stop).length = 5 ∧
      (start.upTo stop).getLast? = some stop ∧ stop ∈ (between start stop).days := by
  intro start stop
  have ordered : start ≤ stop := by decide
  have listed : stop.number < lastDay := by decide
  obtain ⟨-, -, whole, -⟩ := days_between start stop
  obtain ⟨count, -, last, -, member⟩ := whole ordered listed
  exact ⟨ordered, listed, Int.ofNat_inj.1 count, last, member⟩

/-- The calendar's last day has no day behind it, so that no list of days reaches it. -/
theorem days_between_last_day :
    (¬ ∀ start stop : Date, start ≤ stop →
      ((start.upTo stop).length : Int) = stop.number - start.number + 1) ∧
    ¬ ∀ start stop : Date, start ≤ stop → stop ∈ (between start stop).days := by
  let eve : Date := ⟨lastDay - 1, by decide, by decide⟩
  let final : Date := ⟨lastDay, by decide, by decide⟩
  have ordered : eve ≤ final := by decide
  have alone : eve.upTo final = [eve] := by decide +kernel
  constructor
  · intro complete
    have count := complete eve final ordered
    rw [alone] at count
    exact absurd count (by decide)
  · intro ends
    have listed : final ∈ eve.upTo final := ends eve final ordered
    rw [alone] at listed
    exact absurd listed (by decide)

end DateRange

end DatePhrase
