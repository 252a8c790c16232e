import DatePhrase.Engine

/-! What an engine's answers come to, their notices left aside. A recognized phrase with a point
settles the date; without one the pool is asked. -/
namespace DatePhrase
open Text Calendar

namespace Engine
variable {e : Engine} {weekStart : Weekday} {preference : WeekStart} {now : Instant}
variable {text : String}

@[simp] theorem outcome_point_weekdayRange (first last : Weekday) :
    (e.point weekStart now (.weekdayRange first last)).outcome =
      (fun range => some ⟨range.start, now.time⟩) <$> DateRange.ofWeekdays first last now := by
  simp only [point, Answer.outcome_bind, Answer.outcome_liftM]
  cases DateRange.ofWeekdays first last now <;> rfl

@[simp] theorem outcome_point_weekday (week : WeekChoice) (day : Weekday) :
    (e.point weekStart now (.weekday week day)).outcome = some <$> inWeek week day now := by
  simp only [point, Answer.outcome_map, Answer.outcome_liftM]

theorem outcome_point_weekdayAt {week : WeekChoice} {day : Weekday} {rest : String} {i : Instant}
    (h : inWeek week day now = .ok i) :
    (e.point weekStart now (.weekdayAt week day rest)).outcome =
      (fun m => some ((m.map (·.start)).getD i)) <$>
        (e.pool.best rest (.plain i weekStart)).outcome := by
  simp only [point, Answer.outcome_bind, Answer.outcome_liftM, h]
  rfl

/-- Only the text behind a weekday is handed to the grammars, so that two engines which understand
it alike agree on every point. -/
theorem point_congr {f : Engine} {weekStart' : Weekday} {phrase : Recognized}
    (same : ∀ week day rest, phrase = .weekdayAt week day rest → ∀ i,
      e.pool.best rest (.plain i weekStart) = f.pool.best rest (.plain i weekStart')) :
    e.point weekStart now phrase = f.point weekStart' now phrase := by
  cases phrase with
  | immediate word => cases word <;> rfl
  | combinedOffset first second => rfl
  | relativeOffset offset => rfl
  | weekdayRange first last => rfl
  | weekdayAt week day rest => simp only [point, same week day rest rfl]
  | weekday week day => rfl

theorem recognizedPoint_of_some {phrase : Recognized}
    (h : e.vocabulary.recognize text = some phrase) :
    e.recognizedPoint text weekStart now = e.point weekStart now phrase := by
  simp only [recognizedPoint, h]

theorem recognizedPoint_of_none (h : e.vocabulary.recognize text = none) :
    e.recognizedPoint text weekStart now = pure none := by
  simp only [recognizedPoint, h]

theorem date_of_point {i : Instant}
    (h : (e.recognizedPoint (normalize text) (e.weekStart preference) now).outcome =
      .ok (some i)) : (e.date text preference now).outcome = .ok i := by
  simp only [date, Answer.outcome_bind, h]
  rfl

theorem date_of_no_point
    (h : (e.recognizedPoint (normalize text) (e.weekStart preference) now).outcome = .ok none) :
    (e.date text preference now).outcome =
      (e.pool.resolve e.vocabulary (normalize text) (e.weekStart preference) now).outcome := by
  simp only [date, Answer.outcome_bind, h]
  rfl

theorem hasTime_of_verdict {phrase : Recognized} {stated : Bool}
    (h : e.vocabulary.recognize (normalize text) = some phrase)
    (verdict : timeVerdict? phrase = some stated) : e.hasTime text now = pure stated := by
  simp only [hasTime, h, Option.bind_some, verdict]

theorem hasTime_of_unclaimed (h : e.vocabulary.recognize (normalize text) = none) :
    e.hasTime text now =
      e.pool.mentionsTime (normalize text) (.plain now (e.weekStart .localeDefault)) := by
  simp only [hasTime, h, Option.bind_none]

/-- A recognized phrase with a point and a verdict on the time settles both answers. -/
theorem answers_of_phrase {phrase : Recognized} {target : Instant} {stated : Bool}
    (normal : normalize text = text) (claimed : e.vocabulary.recognize text = some phrase)
    (point : (e.point (e.weekStart preference) now phrase).outcome = .ok (some target))
    (verdict : timeVerdict? phrase = some stated) :
    (e.date text preference now).outcome = .ok target ∧
      (e.hasTime text now).outcome = .ok stated := by
  rw [← normal] at claimed
  constructor
  · apply date_of_point
    rw [recognizedPoint_of_some claimed, point]
  · rw [hasTime_of_verdict claimed verdict]
    rfl

theorem outcome_resolve {i : Instant} {stated : Bool}
    (date : (e.date text preference now).outcome = .ok i)
    (time : (e.hasTime text now).outcome = .ok stated) :
    (e.resolve text preference now).outcome = .ok ⟨i, stated⟩ := by
  simp only [resolve, date, bind, time]
  rfl

end Engine

end DatePhrase
