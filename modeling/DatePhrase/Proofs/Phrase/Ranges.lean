import DatePhrase.Phrase.DateRange
import DatePhrase.Proofs.Calendar.DaysAhead

/-! Where ranges of days begin and end. A range between weekdays begins within a week from today and
ends within a week from there, on the weekdays that it is named by unless today ends with the present
leap second; the coming week has seven days. Main statements: both ranges exist two weeks away from
the ends of the calendar, and which days they begin and end on. -/
namespace DatePhrase
open Calendar

namespace DateRange

/-- The same weekday a week later, taken only when the day found comes too early. -/
def laterIf (early : Prop) [Decidable early] (d : Date) : Except Fault Date :=
  if early then d.move 7 else pure d

theorem bind_ite {α β : Type} (c : Prop) [Decidable c] (x y : Except Fault α)
    (f : α → Except Fault β) : (if c then x else y) >>= f = if c then x >>= f else y >>= f := by
  split <;> rfl

theorem laterIf_eq_ok_iff {early : Prop} [Decidable early] {d e : Date} :
    laterIf early d = .ok e ↔ e.number = d.number + if early then 7 else 0 := by
  unfold laterIf
  split
  · exact Date.move_eq_ok_iff
  · simp [pure, Except.pure, Date.ext_iff, eq_comm]

theorem exists_laterIf (early : Prop) [Decidable early] {d : Date}
    (upper : d.number + 7 ≤ lastDay) : ∃ e, laterIf early d = .ok e := by
  have lower := d.first_le
  unfold laterIf
  split
  · exact Date.exists_move (by omega) upper
  · exact ⟨d, rfl⟩

/-- Where a range from `first` begins. -/
def startOn (first : Weekday) (now : Instant) : Except Fault Date := do
  let near := (← now.setWeekday first).date
  laterIf (near < now.date) near

/-- Where a range to `last` ends that begins on `start`. -/
def stopOn (last : Weekday) (now : Instant) (start : Date) : Except Fault Date := do
  let close := (← now.setWeekday last).date
  let later ← laterIf (close < start) close
  if later < start then do
    let week ← Instant.move ⟨start, now.time⟩ 7
    pure (← week.setWeekday last).date
  else pure later

theorem ofWeekdays_eq (first last : Weekday) (now : Instant) :
    ofWeekdays first last now = do
      let start ← startOn first now
      return between start (← stopOn last now start) := by
  simp only [ofWeekdays, startOn, stopOn, laterIf, bind_assoc, bind_ite, pure_bind]

/-- The same weekday in one week or the next one. -/
theorem weekday_of_laterIf {early : Prop} [Decidable early] {d e : Date}
    (found : laterIf early d = .ok e) : e.weekday = d.weekday := by
  have number := laterIf_eq_ok_iff.1 found
  have here := d.index_weekday
  rw [Date.weekday_eq_iff]
  split at number <;> omega

theorem startOn_eq_ok (first : Weekday) (now : Instant) (inside : now.date.Inside 14) :
    ∃ start, startOn first now = .ok start ∧ now.date.number ≤ start.number ∧
      start.number ≤ now.date.number + 6 ∧ (¬ now.time.EndsDay → start.weekday = first) := by
  obtain ⟨lower, upper⟩ := inside
  have early := now.date.number_le
  have late := now.date.sunday_le
  have first_le := first.index_le
  obtain ⟨u, hu⟩ := Instant.exists_setWeekday (t := now) (w := first) (by omega) (by omega)
  have week := Instant.sunday_of_setWeekday hu
  have near := u.date.number_le
  have near' := u.date.sunday_le
  obtain ⟨start, hstart⟩ := exists_laterIf (u.date < now.date) (d := u.date) (by omega)
  have number := laterIf_eq_ok_iff.1 hstart
  simp only [Date.lt_iff] at number
  refine ⟨start, by rw [startOn, hu]; exact hstart, ?_, ?_, fun plain => ?_⟩
  · split at number <;> omega
  · split at number <;> omega
  · rw [weekday_of_laterIf hstart, Instant.weekday_of_setWeekday plain hu]

theorem stopOn_eq_ok (last : Weekday) (now : Instant) (start : Date)
    (inside : now.date.Inside 14) (from_now : now.date.number ≤ start.number)
    (soon : start.number ≤ now.date.number + 6) :
    ∃ stop, stopOn last now start = .ok stop ∧ start.number ≤ stop.number ∧
      stop.number ≤ start.number + 6 ∧ (¬ now.time.EndsDay → stop.weekday = last) := by
  obtain ⟨lower, upper⟩ := inside
  have early := now.date.number_le
  have late := now.date.sunday_le
  have last_le := last.index_le
  obtain ⟨v, hv⟩ := Instant.exists_setWeekday (t := now) (w := last) (by omega) (by omega)
  have close := (Instant.setWeekday_eq_ok_iff.1 hv).1
  have week := Instant.sunday_of_setWeekday hv
  have within := v.date.number_le
  obtain ⟨later, hlater⟩ := exists_laterIf (v.date < start) (d := v.date) (by omega)
  have number := laterIf_eq_ok_iff.1 hlater
  simp only [Date.lt_iff] at number
  simp only [stopOn, hv, hlater, bind, Except.bind]
  by_cases before : later < start
  · -- the range begins in the week after the present one, behind the place of its last weekday
    have before' := Date.lt_iff.1 before
    have start_early := start.number_le
    have start_late := start.sunday_le
    have start_week : start.sunday = now.date.sunday + 7 := by
      have := now.date.sunday_mod
      have := start.sunday_mod
      split at number <;> omega
    obtain ⟨week, hweek⟩ := Instant.exists_move (t := ⟨start, now.time⟩) (n := 7)
      (by simp only; omega) (by simp only; omega)
    have week_sunday := Instant.sunday_of_move (n := 1)
      (TimeOfDay.carry_of_nonneg (by decide)) hweek
    simp only at week_sunday
    have regular : ¬ week.time.EndsDay := by
      apply TimeOfDay.not_endsDay_of_regular
      rw [(Instant.move_eq_ok_iff.1 hweek).2, TimeOfDay.leap_moved, Bool.and_eq_false_iff]
      exact .inr rfl
    obtain ⟨w, hw⟩ := Instant.exists_setWeekday (t := week) (w := last) (by omega) (by omega)
    have stop := Instant.number_of_setWeekday regular hw
    refine ⟨w.date, by simp [before, hweek, hw, pure, Except.pure], by omega, ?_, fun _ => ?_⟩
    · split at number <;> omega
    · exact Instant.weekday_of_setWeekday regular hw
  · have reached : start.number ≤ later.number := by
      rw [Date.lt_iff] at before
      omega
    refine ⟨later, by simp [before, pure, Except.pure], reached, ?_, fun plain => ?_⟩
    · split at number <;> omega
    · rw [weekday_of_laterIf hlater, Instant.weekday_of_setWeekday plain hv]

/-- The days on which a range from `first` to `last` begins and ends. A leap second at the end of the
day may put it on other weekdays, but no further away. -/
structure Stretch (first last : Weekday) (now : Instant) (start stop : Date) : Prop where
  from_today : now.date.number ≤ start.number
  soon : start.number ≤ now.date.number + 6
  ordered : start.number ≤ stop.number
  short : stop.number ≤ start.number + 6
  opens : ¬ now.time.EndsDay → start.weekday = first
  closes : ¬ now.time.EndsDay → stop.weekday = last

theorem ofWeekdays_eq_ok (first last : Weekday) (now : Instant) (inside : now.date.Inside 14) :
    ∃ start stop, ofWeekdays first last now = .ok (between start stop) ∧
      Stretch first last now start stop := by
  obtain ⟨start, hstart, from_today, soon, opens⟩ := startOn_eq_ok first now inside
  obtain ⟨stop, hstop, ordered, short, closes⟩ :=
    stopOn_eq_ok last now start inside from_today soon
  exact ⟨start, stop, by rw [ofWeekdays_eq, hstart]; simp only [bind, Except.bind, hstop]; rfl,
    from_today, soon, ordered, short, opens, closes⟩

/-- The first such weekdays are meant, the one from today on and the other from there on. -/
theorem Stretch.onOrAfter {first last : Weekday} {now : Instant} {start stop : Date}
    (days : Stretch first last now start stop) (early : ¬ now.time.EndsDay) :
    now.date.onOrAfter first = .ok start ∧ start.onOrAfter last = .ok stop := by
  have soon := days.soon
  have short := days.short
  rw [Date.onOrAfter_eq_ok_iff_of_week, Date.onOrAfter_eq_ok_iff_of_week]
  exact ⟨⟨days.from_today, by omega, days.opens early⟩, days.ordered, by omega, days.closes early⟩

/-- A range between weekdays depends on the date alone. -/
theorem ofWeekdays_midnight (first last : Weekday) {now : Instant} (early : ¬ now.time.EndsDay) :
    ofWeekdays first last now = ofWeekdays first last now.date.midnight := by
  have night : ¬ TimeOfDay.midnight.EndsDay := TimeOfDay.not_endsDay_of_regular rfl
  simp only [ofWeekdays, Instant.setWeekday_eq, Instant.move_eq, bind_map_left, Date.midnight,
    TimeOfDay.carry_of_not_endsDay early, TimeOfDay.carry_of_not_endsDay night,
    TimeOfDay.carry_of_not_endsDay (TimeOfDay.not_endsDay_moved early 7),
    TimeOfDay.carry_of_not_endsDay (TimeOfDay.not_endsDay_moved night 7)]

/-- The coming week begins on the first such day after today and has seven days. -/
theorem nextWeek_eq_ok (weekStart : Weekday) (today : Date) (inside : today.Inside 14) :
    ∃ start stop, nextWeek weekStart today = .ok (between start stop) ∧
      today.nextAfter weekStart = .ok start ∧ stop.number = start.number + 6 := by
  obtain ⟨start, hstart⟩ := Date.exists_nextAfter (w := weekStart) (inside.mono (by decide))
  have ahead := today.weekday.daysUntil_lt weekStart
  have start_number := Date.nextAfter_eq_ok_iff.1 hstart
  obtain ⟨lower, upper⟩ := inside
  obtain ⟨stop, hstop⟩ := Date.exists_move (d := start) (n := 6)
    (by split at start_number <;> omega) (by split at start_number <;> omega)
  refine ⟨start, stop, ?_, hstart, Date.move_eq_ok_iff.1 hstop⟩
  simp [nextWeek, hstart, hstop, bind, Except.bind, pure, Except.pure]

/-- How a text is read as a range does not depend on when it is read. -/
theorem ofText_cases (v : Vocabulary) (text : String) (weekStart : Weekday) :
    (∃ first last, v.recognizeAs text .weekdayRange = some (.weekdayRange first last) ∧
      ∀ now, ofText v text weekStart now = some <$> ofWeekdays first last now) ∨
    (∀ now, ofText v text weekStart now = some <$> nextWeek weekStart now.date) ∨
    ∀ now, ofText v text weekStart now = .ok none := by
  unfold ofText
  split
  · rename_i first last recognized
    exact .inl ⟨first, last, recognized, fun now => rfl⟩
  · split
    · exact .inr (.inl fun now => rfl)
    · exact .inr (.inr fun now => rfl)

/-- A text may name a range, and finding it never leaves the calendar. -/
theorem exists_ofText (v : Vocabulary) (text : String) (weekStart : Weekday) (now : Instant)
    (inside : now.date.Inside 14) : ∃ r, ofText v text weekStart now = .ok r := by
  obtain ⟨first, last, -, range⟩ | range | range := ofText_cases v text weekStart
  · obtain ⟨start, stop, h, -⟩ := ofWeekdays_eq_ok first last now inside
    exact ⟨_, by rw [range, h]; rfl⟩
  · obtain ⟨start, stop, h, -⟩ := nextWeek_eq_ok weekStart now.date inside
    exact ⟨_, by rw [range, h]; rfl⟩
  · exact ⟨none, range now⟩

end DateRange

end DatePhrase
