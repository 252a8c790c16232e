import DatePhrase.Phrase.Recognized

/-! Ranges of days: from one weekday to another, and the coming week. -/
namespace DatePhrase
open Calendar

structure DateRange where
  start : Date
  stop : Date
  days : List Date
  deriving DecidableEq

namespace DateRange

def between (start stop : Date) : DateRange := ⟨start, stop, start.upTo stop⟩

/-- The start is this week's `first`, a week later if that day is past. The end is this week's
`last`, moved on by a week, or taken from the week after the start, if it would come before. -/
def ofWeekdays (first last : Weekday) (now : Instant) : Except Fault DateRange := do
  let near := (← now.setWeekday first).date
  let start ← if near < now.date then near.move 7 else pure near
  let close := (← now.setWeekday last).date
  let later ← if close < start then close.move 7 else pure close
  let stop ←
    if later < start then do
      let week ← Instant.move ⟨start, now.time⟩ 7
      pure (← week.setWeekday last).date
    else pure later
  return between start stop

/-- The seven days from the next `weekStart` after today. -/
def nextWeek (weekStart : Weekday) (today : Date) : Except Fault DateRange := do
  let start ← today.nextAfter weekStart
  return between start (← start.move 6)

def ofText (v : Vocabulary) (text : String) (weekStart : Weekday) (now : Instant) :
    Except Fault (Option DateRange) :=
  match v.recognizeAs text .weekdayRange with
  | some (.weekdayRange first last) => some <$> ofWeekdays first last now
  | _ =>
    if v.nextPeriod? text = some .week then some <$> nextWeek weekStart now.date
    else pure none

end DateRange

end DatePhrase
