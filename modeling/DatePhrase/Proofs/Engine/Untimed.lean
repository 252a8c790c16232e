import DatePhrase.Proofs.Calendar.CheckedSteps
import DatePhrase.Proofs.Engine.InsideCalendar

/-! Phrases that state no time of day only move the day. For each such shape the point is a step that
moves the day. Main statement: with an untimed phrase every engine answers the point, which has the
present time of day outside leap seconds; and the day depends on the present date alone, save in
leap seconds that end one. -/
namespace DatePhrase
open Text Calendar

theorem DateRange.movesDay_ofWeekdays (first last : Weekday) :
    MovesDay fun now =>
      ((fun r => (⟨r.start, now.time⟩ : Instant)) <$> ofWeekdays first last now).toOption := by
  refine .of_date (g := fun d => ((·.start) <$> ofWeekdays first last d.midnight).toOption)
    (fun now early => ?_) fun {now i} found => ⟨0, ?_⟩
  · rw [ofWeekdays_midnight first last early]
    cases ofWeekdays first last now.date.midnight <;> rfl
  · rw [TimeOfDay.moved_zero]
    cases days : ofWeekdays first last now with
    | error fault => simp [days, Functor.map, Except.map, Except.toOption] at found
    | ok r =>
      simp only [days, Functor.map, Except.map, Except.toOption, Option.some.injEq] at found
      rw [← found]

namespace Engine

theorem movesDay_inWeek (week : WeekChoice) (day : Weekday) :
    MovesDay fun now => (inWeek week day now).toOption := by
  have steps : (fun now => (inWeek week day now).toOption) = fun now =>
      (now.move (7 * week.weeks)).toOption.bind fun near => (near.setWeekday day).toOption := by
    funext now
    rw [inWeek_eq]
    cases now.move (7 * week.weeks) <;> rfl
  rw [steps]
  exact (Instant.movesDay_move (7 * week.weeks)).bind (Instant.movesDay_setWeekday day)

variable {e : Engine} {weekStart : Weekday} {phrase : Recognized}

/-- The point of the phrase, if it has one, comes from a step that moves the day. -/
def MovesPoint (e : Engine) (weekStart : Weekday) (phrase : Recognized) : Prop :=
  ∃ f : Instant → Option Instant, MovesDay f ∧ ∀ now p,
    (e.point weekStart now phrase).outcome = .ok (some p) ↔ f now = some p

theorem movesPoint_of_offset {f : Instant → Option Instant} (moves : MovesDay f)
    (h : ∀ now, (e.point weekStart now phrase).outcome = .ok (f now)) :
    e.MovesPoint weekStart phrase :=
  ⟨f, moves, fun now p => by rw [h, Except.ok.injEq]⟩

theorem movesPoint_of_step {f : Instant → Except Fault Instant}
    (moves : MovesDay fun now => (f now).toOption)
    (h : ∀ now, (e.point weekStart now phrase).outcome = some <$> f now) :
    e.MovesPoint weekStart phrase := by
  refine ⟨_, moves, fun now p => ?_⟩
  rw [h]
  cases f now with
  | error fault => simp [Functor.map, Except.map, Except.toOption]
  | ok i => simp [Functor.map, Except.map, Except.toOption]

/-- A phrase without a stated time of day moves the day, be it by its shape or by a weekday range,
whose time is left to the grammars. -/
theorem movesPoint_of_untimed (untimed : timeVerdict? phrase ≠ some true) :
    e.MovesPoint weekStart phrase := by
  cases phrase with
  | immediate word =>
    cases word with
    | now => exact absurd rfl untimed
    | today => exact movesPoint_of_offset MovesDay.some fun now => rfl
    | tomorrow => exact movesPoint_of_offset (Instant.movesDay_add? rfl 1) fun now => rfl
    | yesterday => exact movesPoint_of_offset (Instant.movesDay_add? rfl (-1)) fun now => rfl
  | combinedOffset first second =>
    simp only [timeVerdict?, ne_eq, Option.some.injEq, Bool.or_eq_true, not_or,
      Bool.not_eq_true] at untimed
    exact movesPoint_of_offset ((Instant.movesDay_add? untimed.1 first.amount).bind
      (Instant.movesDay_add? untimed.2 second.amount)) fun now => rfl
  | relativeOffset offset =>
    simp only [timeVerdict?, ne_eq, Option.some.injEq, Bool.not_eq_true] at untimed
    exact movesPoint_of_offset (Instant.movesDay_add? untimed offset.amount) fun now => rfl
  | weekdayRange first last =>
    refine movesPoint_of_step (DateRange.movesDay_ofWeekdays first last) fun now => ?_
    rw [outcome_point_weekdayRange]
    simp only [Functor.map_map]
  | weekdayAt week day rest => exact absurd rfl untimed
  | weekday week day =>
    exact movesPoint_of_step (movesDay_inWeek week day) fun now => outcome_point_weekday week day

/-- An untimed phrase leads to its point: at the present time of day, which only a leap second may
change as a step by whole days does, and on one day for all instants of a day but a leap second at
its end. -/
theorem date_of_untimed (e : Engine) (text : String) (preference : WeekStart) (now p : Instant)
    (phrase : Recognized) (claimed : e.vocabulary.recognize (normalize text) = some phrase)
    (point : (e.point (e.weekStart preference) now phrase).outcome = .ok (some p))
    (untimed : (e.hasTime text now).outcome = .ok false) :
    (e.date text preference now).outcome = .ok p ∧
      (∃ n, p.time = now.time.moved n) ∧ (now.time.leap = false → p.time = now.time) ∧
      (¬ now.time.EndsDay → ∀ later : Instant, later.date = now.date → ¬ later.time.EndsDay →
        ∃ j, (e.date text preference later).outcome = .ok j ∧ j.date = p.date) := by
  have silent : timeVerdict? phrase ≠ some true := by
    intro stated
    rw [hasTime_of_verdict claimed stated] at untimed
    cases untimed
  obtain ⟨f, moves, leads⟩ :=
    (movesPoint_of_untimed silent : e.MovesPoint (e.weekStart preference) phrase)
  have settled : ∀ {later i : Instant}, f later = some i →
      (e.date text preference later).outcome = .ok i := by
    intro later i found
    apply date_of_point
    rw [recognizedPoint_of_some claimed]
    exact (leads later i).2 found
  have here : f now = some p := (leads now p).1 point
  refine ⟨settled here, moves.time here, fun regular => moves.time_of_regular regular here,
    fun early later same early' => ?_⟩
  obtain ⟨j, there, day⟩ := moves.day early early' same here
  exact ⟨j, settled there, day⟩

/-- Tomorrow at ten is the next day at ten, and the day is the same from the last second on. -/
theorem date_of_untimed_tomorrow :
    let e := ofPool (Table.empty.insert "en" "tomorrow" "tomorrow") ["en"] []
    let ten : TimeOfDay := ⟨10 * nanosPerHour, by decide, false⟩
    let now : Instant := ⟨⟨20742, by decide, by decide⟩, ten⟩
    let late : Instant := ⟨now.date, ⟨nanosPerDay - 1, by decide, false⟩⟩
    let p : Instant := ⟨⟨20743, by decide, by decide⟩, ten⟩
    e.vocabulary.recognize (normalize "Tomorrow") = some (.immediate .tomorrow) ∧
      (e.point (e.weekStart .localeDefault) now (.immediate .tomorrow)).outcome = .ok (some p) ∧
      (e.hasTime "Tomorrow" now).outcome = .ok false ∧
      now.time.leap = false ∧ ¬ now.time.EndsDay ∧ ¬ late.time.EndsDay ∧
      (e.date "Tomorrow" .localeDefault now).outcome = .ok p ∧ p.time = now.time ∧
      ∃ j, (e.date "Tomorrow" .localeDefault late).outcome = .ok j ∧ j.date = p.date := by
  intro e ten now late p
  have claimed : e.vocabulary.recognize (normalize "Tomorrow") = some (.immediate .tomorrow) := by
    decide +kernel
  have point : (e.point (e.weekStart .localeDefault) now (.immediate .tomorrow)).outcome =
      .ok (some p) := by decide +kernel
  have untimed : (e.hasTime "Tomorrow" now).outcome = .ok false := by decide +kernel
  have early : ¬ now.time.EndsDay := by decide
  have early' : ¬ late.time.EndsDay := by decide
  obtain ⟨answer, -, time, day⟩ :=
    date_of_untimed e "Tomorrow" .localeDefault now p _ claimed point untimed
  exact ⟨claimed, point, untimed, rfl, early, early', answer, time rfl, day early late rfl early'⟩

/-- From a leap second tomorrow is a day later by the clock, a second earlier than its time of day. -/
theorem not_untimed_of_leap_second :
    ¬ ∀ (e : Engine) (text : String) (preference : WeekStart) (now p : Instant)
        (phrase : Recognized), e.vocabulary.recognize (normalize text) = some phrase →
      (e.point (e.weekStart preference) now phrase).outcome = .ok (some p) →
      (e.hasTime text now).outcome = .ok false →
      ∃ i, (e.date text preference now).outcome = .ok i ∧ i.time = now.time := by
  intro keeps
  let e := ofPool (Table.empty.insert "en" "tomorrow" "tomorrow") ["en"] []
  let last : Instant :=
    ⟨⟨20742, by decide, by decide⟩, ⟨nanosPerDay - 500000000, by decide, true⟩⟩
  let p : Instant :=
    ⟨⟨20743, by decide, by decide⟩, ⟨nanosPerDay - 500000000, by decide, false⟩⟩
  obtain ⟨i, answer, time⟩ := keeps e "tomorrow" .localeDefault last p (.immediate .tomorrow)
    (by decide +kernel) (by decide +kernel) (by decide +kernel)
  have moved : (e.date "tomorrow" .localeDefault last).outcome = .ok p := by decide +kernel
  obtain rfl : p = i := Except.ok.inj (moved.symm.trans answer)
  exact absurd time (by decide)

end Engine

end DatePhrase
