import DatePhrase.Proofs.Engine.Outcomes
import DatePhrase.Proofs.Pool.Votes

/-! Two weeks away from the ends of the calendar every text is answered. The weekday of a chosen
week lies in the week before, around or behind the reference, so that a grammar which then moves on
from that weekday still finds its days. Main statement: date, range and time of day are answered
for every table, every list of languages, every text and every reader of phrases. -/
namespace DatePhrase
open Text Calendar

theorem WeekChoice.weeks_bounds (week : WeekChoice) : -1 ≤ week.weeks ∧ week.weeks ≤ 1 := by
  cases week <;> decide

namespace Engine

/-- The present week is the one no weeks away. -/
theorem inWeek_eq (week : WeekChoice) (day : Weekday) (now : Instant) :
    inWeek week day now = now.move (7 * week.weeks) >>= (·.setWeekday day) := by
  cases week with
  | current => simp only [inWeek, WeekChoice.weeks, if_true, Int.mul_zero, Instant.move_zero]; rfl
  | following | preceding => rfl

theorem of_inWeek {week : WeekChoice} {day : Weekday} {now i : Instant}
    (h : inWeek week day now = .ok i) : ∃ near,
      now.move (7 * week.weeks) = .ok near ∧ near.setWeekday day = .ok i := by
  rw [inWeek_eq] at h
  cases moved : now.move (7 * week.weeks) with
  | error e => simp [moved, bind, Except.bind] at h
  | ok near => exact ⟨near, rfl, by simpa [moved, bind, Except.bind] using h⟩

/-- The chosen week, or the one behind it if a day is lost in a leap second. -/
theorem sunday_bounds_of_inWeek {week : WeekChoice} {day : Weekday} {now i : Instant}
    (h : inWeek week day now = .ok i) :
    now.date.sunday - 7 ≤ i.date.sunday ∧ i.date.sunday ≤ now.date.sunday + 7 := by
  obtain ⟨near, moved, set⟩ := of_inWeek h
  have bounds := Instant.sunday_of_move_bounds moved
  have weeks := week.weeks_bounds
  have carry := now.time.carry_le (7 * week.weeks)
  have still : 0 ≤ 7 * week.weeks → now.time.carry (7 * week.weeks) = 0 :=
    TimeOfDay.carry_of_nonneg
  rw [Instant.sunday_of_setWeekday set]
  omega

theorem exists_inWeek (week : WeekChoice) (day : Weekday) {now : Instant}
    (inside : now.date.Inside 14) : ∃ i, inWeek week day now = .ok i := by
  obtain ⟨lower, upper⟩ := inside
  have early := now.date.number_le
  have late := now.date.sunday_le
  have day_le := day.index_le
  have weeks := week.weeks_bounds
  obtain ⟨near, hnear⟩ := Instant.exists_move (t := now) (n := 7 * week.weeks)
    (by omega) (by omega)
  have bounds := Instant.sunday_of_move_bounds hnear
  have carry := now.time.carry_le (7 * week.weeks)
  have still : 0 ≤ 7 * week.weeks → now.time.carry (7 * week.weeks) = 0 :=
    TimeOfDay.carry_of_nonneg
  obtain ⟨i, hi⟩ := Instant.exists_setWeekday (t := near) (w := day) (by omega) (by omega)
  exact ⟨i, by rw [inWeek_eq, hnear]; exact hi⟩

section Early
variable {week : WeekChoice} {day : Weekday} {now i : Instant}

theorem sunday_of_inWeek (early : ¬ now.time.EndsDay) (h : inWeek week day now = .ok i) :
    i.date.sunday = now.date.sunday + 7 * week.weeks := by
  obtain ⟨near, moved, set⟩ := of_inWeek h
  rw [Instant.sunday_of_setWeekday set,
    Instant.sunday_of_move (TimeOfDay.carry_of_not_endsDay early) moved]

theorem number_of_inWeek (early : ¬ now.time.EndsDay) (h : inWeek week day now = .ok i) :
    i.date.number = now.date.sunday + 7 * week.weeks + day.index := by
  obtain ⟨near, moved, set⟩ := of_inWeek h
  rw [Instant.number_of_setWeekday (Instant.not_endsDay_of_move early moved) set,
    Instant.sunday_of_move (TimeOfDay.carry_of_not_endsDay early) moved]

theorem time_of_inWeek (regular : now.time.leap = false) (h : inWeek week day now = .ok i) :
    i.time = now.time := by
  obtain ⟨near, moved, set⟩ := of_inWeek h
  have kept := ((Instant.move_eq_ok_iff_of_regular regular).1 moved).2
  rw [((Instant.setWeekday_eq_ok_iff_of_regular (kept ▸ regular)).1 set).2, kept]

end Early

/-- The weekday of a chosen week leaves a plain reading the room to move on from it. -/
theorem hasRoom_inWeek {week : WeekChoice} {day : Weekday} {now i : Instant}
    (inside : now.date.Inside 14) (h : inWeek week day now = .ok i) (weekStart : Weekday) :
    (Options.plain i weekStart).HasRoom := by
  have sunday := sunday_bounds_of_inWeek h
  have early := now.date.number_le
  have late := now.date.sunday_le
  obtain ⟨lower, upper⟩ := inside
  refine ⟨?_, ?_, nofun⟩ <;> simp only [Options.plain] <;> omega

variable (reader : PhraseReader) (t : Table) (languages : List String)

theorem ofTable_stays {o : Options} (room : o.HasRoom) (text : String) :
    (ofTable reader t languages).pool.Stays text o := by
  intro g hg
  obtain ⟨language, -, made⟩ := List.mem_filterMap.1 hg
  exact Grammar.read_ne_of_ofLanguage? made room text

theorem stays_plain (text : String) (weekStart : Weekday) {now : Instant}
    (inside : now.date.Inside 14) :
    (ofTable reader t languages).pool.Stays text (.plain now weekStart) :=
  ofTable_stays reader t languages (Options.hasRoom_plain weekStart inside) text

theorem stays_forward (text : String) (weekStart : Weekday) {now : Instant}
    (inside : now.date.Inside 14) :
    (ofTable reader t languages).pool.Stays text ⟨now, true, weekStart⟩ :=
  ofTable_stays reader t languages (Options.hasRoom_forward weekStart inside) text

theorem exists_point (weekStart : Weekday) {now : Instant} (inside : now.date.Inside 14)
    (phrase : Recognized) :
    ∃ p, ((ofTable reader t languages).point weekStart now phrase).outcome = .ok p := by
  cases phrase with
  | immediate word => cases word <;> exact ⟨_, rfl⟩
  | combinedOffset first second => exact ⟨_, rfl⟩
  | relativeOffset offset => exact ⟨_, rfl⟩
  | weekdayRange first last =>
    obtain ⟨start, stop, h, -⟩ := DateRange.ofWeekdays_eq_ok first last now inside
    exact ⟨some ⟨start, now.time⟩, by rw [outcome_point_weekdayRange, h]; rfl⟩
  | weekdayAt week day rest =>
    obtain ⟨i, hi⟩ := exists_inWeek week day inside
    have stays := ofTable_stays reader t languages (hasRoom_inWeek inside hi weekStart) rest
    exact ⟨_, by rw [outcome_point_weekdayAt hi, Pool.outcome_best stays]; rfl⟩
  | weekday week day =>
    obtain ⟨i, hi⟩ := exists_inWeek week day inside
    exact ⟨some i, by rw [outcome_point_weekday, hi]; rfl⟩

theorem exists_recognizedPoint (text : String) (weekStart : Weekday) {now : Instant}
    (inside : now.date.Inside 14) :
    ∃ p, ((ofTable reader t languages).recognizedPoint text weekStart now).outcome = .ok p := by
  cases recognized : (ofTable reader t languages).vocabulary.recognize text with
  | none => exact ⟨none, by rw [recognizedPoint_of_none recognized]; rfl⟩
  | some phrase =>
    rw [recognizedPoint_of_some recognized]
    exact exists_point reader t languages weekStart inside phrase

theorem exists_date (text : String) (preference : WeekStart) {now : Instant}
    (inside : now.date.Inside 14) :
    ∃ i, ((ofTable reader t languages).date text preference now).outcome = .ok i := by
  obtain ⟨p, hp⟩ := exists_recognizedPoint reader t languages (normalize text)
    ((ofTable reader t languages).weekStart preference) inside
  cases p with
  | some i => exact ⟨i, date_of_point hp⟩
  | none =>
    rw [date_of_no_point hp]
    exact Pool.exists_resolve _ (stays_plain reader t languages _ _ inside)
      (stays_forward reader t languages _ _ inside) inside

theorem exists_hasTime (text : String) {now : Instant} (inside : now.date.Inside 14) :
    ∃ stated, ((ofTable reader t languages).hasTime text now).outcome = .ok stated := by
  unfold hasTime
  dsimp only
  split
  · exact ⟨_, rfl⟩
  · exact ⟨_, Pool.outcome_mentionsTime (stays_plain reader t languages _ _ inside)⟩

/-- Two weeks inside the calendar no question about a text leaves it. -/
theorem answers_inside (text : String) (preference : WeekStart) (now : Instant)
    (inside : now.date.Inside 14) :
    (∃ i, ((ofTable reader t languages).date text preference now).outcome = .ok i) ∧
      (∃ r, (ofTable reader t languages).range text preference now = .ok r) ∧
      ∃ stated, ((ofTable reader t languages).hasTime text now).outcome = .ok stated :=
  ⟨exists_date reader t languages text preference inside,
    DateRange.exists_ofText _ _ _ now inside, exists_hasTime reader t languages text inside⟩

/-- On the fifteenth day of the calendar the recognized weekday lies eleven days back, and the grammar
goes back one more; the reader of phrases, which breaks down, is not asked. -/
theorem answers_on_fifteenth_day :
    let t := (((Table.empty.insert "en" "last" "last").insert "en" "sunday" "sunday").insert
      "en" "at" "at").insert "en" "yesterday" "yesterday"
    let e := ofTable (fun _ => .broken) t ["en"]
    let now : Instant := ⟨⟨firstDay + 14, by decide, by decide⟩, .midnight⟩
    let sunday : Instant := ⟨⟨firstDay + 3, by decide, by decide⟩, .midnight⟩
    let saturday : Instant := ⟨⟨firstDay + 2, by decide, by decide⟩, .midnight⟩
    let text := "last sunday at yesterday"
    now.date.Inside 14 ∧
      e.vocabulary.recognize (normalize text) = some (.weekdayAt .preceding .sunday "yesterday") ∧
      inWeek .preceding .sunday now = .ok sunday ∧
      (e.date text .localeDefault now).outcome = .ok saturday ∧
      (∃ r, e.range text .localeDefault now = .ok r) ∧
      ∃ stated, (e.hasTime text now).outcome = .ok stated := by
  intro t e now sunday saturday text
  have inside : now.date.Inside 14 := by decide
  obtain ⟨⟨i, answer⟩, range, flag⟩ :=
    answers_inside (fun _ => .broken) t ["en"] text .localeDefault now inside
  have back : (e.date text .localeDefault now).outcome = .ok saturday := by decide +kernel
  obtain rfl : i = saturday := Except.ok.inj (answer.symm.trans back)
  exact ⟨inside, by decide +kernel, by decide, answer, range, flag⟩

end Engine

end DatePhrase
