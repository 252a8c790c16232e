import DatePhrase.Grammar.English
import DatePhrase.Pool

/-! The engine: fixed shapes first, then the pool of grammars. It answers every text, with the
present instant if nothing is understood; the only fault is a date outside the calendar. -/
namespace DatePhrase
open Text Calendar

structure Resolution where
  date : Instant
  hasTime : Bool
  deriving DecidableEq

/-- Everything that depends on the languages and their words. -/
structure Engine where
  languages : List String
  vocabulary : Vocabulary
  pool : Pool

namespace Engine

/-- The languages asked for, or the default one. -/
def requested (languages : List String) : List String :=
  if languages.isEmpty then [defaultLanguage] else languages

/-- The languages that the table has, each once, in the order asked for. -/
def supported (t : Table) (languages : List String) : List String :=
  ((requested languages).filter t.hasLanguage).eraseDups

/-- What building an engine has to say about its languages. -/
def notices (t : Table) (languages : List String) : List Notice :=
  (if languages.isEmpty then [.noLanguages] else []) ++
    ((requested languages).filter (! t.hasLanguage ·)).map .unsupported

/-- An engine with grammars of the caller's choice. -/
def ofPool (t : Table) (languages : List String) (pool : Pool) : Engine where
  languages := supported t languages
  vocabulary := .ofTable t (supported t languages)
  pool := pool

/-- An engine with the grammars of its languages. -/
def ofTable (reader : PhraseReader) (t : Table) (languages : List String) : Engine :=
  ofPool t languages ((supported t languages).filterMap (Grammar.ofLanguage? reader t))

/-- The first day of the week, by the first language if none is preferred. -/
def weekStart (e : Engine) (preference : WeekStart) : Weekday :=
  preference.resolve (e.languages.head?.getD defaultLanguage)

/-- Without blanks around it and in lower case. -/
def normalize (text : String) : String := lower (trim text)

/-- A weekday in the chosen week from Sunday to Saturday. -/
def inWeek (week : WeekChoice) (day : Weekday) (now : Instant) : Except Fault Instant := do
  (← if week = .current then pure now else now.move (7 * week.weeks)).setWeekday day

/-- The instant that a recognized phrase names, none if an offset leaves the calendar. -/
def point (e : Engine) (weekStart : Weekday) (now : Instant) :
    Recognized → Answer (Option Instant)
  | .immediate .now => pure (some now)
  | .immediate .today => pure (some now)
  | .immediate .tomorrow => pure (now.add? 1 .day)
  | .immediate .yesterday => pure (now.add? (-1) .day)
  | .combinedOffset first second => pure ((now.addOffset? first).bind (·.addOffset? second))
  | .relativeOffset offset => pure (now.addOffset? offset)
  | .weekdayRange first last => do
    let range ← (DateRange.ofWeekdays first last now : Except Fault DateRange)
    return some ⟨range.start, now.time⟩
  | .weekdayAt week day rest => do
    let day ← (inWeek week day now : Except Fault Instant)
    let best ← e.pool.best rest (.plain day weekStart)
    return some ((best.map (·.start)).getD day)
  | .weekday week day => some <$> (inWeek week day now : Except Fault Instant)

/-- The point of a recognized phrase, if it has one. -/
def recognizedPoint (e : Engine) (text : String) (weekStart : Weekday) (now : Instant) :
    Answer (Option Instant) :=
  match e.vocabulary.recognize text with
  | some phrase => e.point weekStart now phrase
  | none => pure none

def date (e : Engine) (text : String) (preference : WeekStart) (now : Instant) :
    Answer Instant := do
  let text := normalize text
  let weekStart := e.weekStart preference
  match ← e.recognizedPoint text weekStart now with
  | some point => return point
  | none => e.pool.resolve e.vocabulary text weekStart now

def range (e : Engine) (text : String) (preference : WeekStart) (now : Instant) :
    Except Fault (Option DateRange) :=
  DateRange.ofText e.vocabulary (normalize text) (e.weekStart preference) now

/-- Whether a recognized phrase states a time of day; a weekday range leaves it open. -/
def timeVerdict? : Recognized → Option Bool
  | .immediate word => some (word = .now)
  | .combinedOffset first second => some (first.unit.isClock || second.unit.isClock)
  | .relativeOffset offset => some offset.unit.isClock
  | .weekdayAt _ _ _ => some true
  | .weekday _ _ => some false
  | .weekdayRange _ _ => none

/-- Whether a text states a time of day: by its shape, or else by any grammar's vote. -/
def hasTime (e : Engine) (text : String) (now : Instant) : Answer Bool :=
  let text := normalize text
  match (e.vocabulary.recognize text).bind timeVerdict? with
  | some verdict => pure verdict
  | none => e.pool.mentionsTime text (.plain now (e.weekStart .localeDefault))

def resolve (e : Engine) (text : String) (preference : WeekStart) (now : Instant) :
    Answer Resolution := do
  let date ← e.date text preference now
  return ⟨date, ← e.hasTime text now⟩

end Engine

end DatePhrase
