import DatePhrase.Calendar.Layout
import DatePhrase.Engine
import DatePhrase.Settings

/-! Resolved dates as text to put into a note. -/
namespace DatePhrase
open Calendar

/-- How a resolved expression replaces the selected text. -/
inductive InsertMode where
  /-- A wiki link to the day, then the time if one was stated. -/
  | replace
  /-- A link from the selected text. -/
  | link
  /-- The date alone. -/
  | clean
  /-- The time of day alone. -/
  | time
  deriving DecidableEq, Repr

namespace InsertMode

def all : List InsertMode := [replace, link, clean, time]

def name : InsertMode → String
  | replace => "replace" | link => "link" | clean => "clean" | time => "time"

def ofName? (text : String) : Option InsertMode :=
  all.find? (·.name == text)

end InsertMode

/-- What a stamp of the present instant shows. -/
inductive Stamp where
  | now | today | time
  deriving DecidableEq, Repr

namespace Stamp

def all : List Stamp := [now, today, time]

def name : Stamp → String
  | now => "now" | today => "today" | time => "time"

def ofName? (text : String) : Option Stamp :=
  all.find? (·.name == text)

end Stamp

namespace Settings

/-- The date, and the time behind it if one was stated. -/
def renderPoint (s : Settings) (r : Resolution) : Except InvalidLayout String := do
  let date ← r.date.format s.format
  if r.hasTime then return date ++ " " ++ (← r.date.format s.timeFormat) else return date

/-- The text that replaces the selected one. -/
def renderInsert (s : Settings) (mode : InsertMode) (selected : String) (r : Resolution) :
    Except InvalidLayout String := do
  match mode with
  | .replace =>
    if r.hasTime then
      let date ← r.date.format s.format
      return "[[" ++ date ++ "]] " ++ (← r.date.format s.timeFormat)
    else return "[[" ++ (← s.renderPoint r) ++ "]]"
  | .link => return "[" ++ selected ++ "](" ++ (← s.renderPoint r) ++ ")"
  | .clean => s.renderPoint r
  | .time => r.date.format s.timeFormat

/-- Both ends of a range. -/
def renderRange (s : Settings) (r : DateRange) : Except InvalidLayout String := do
  let start ← r.start.midnight.format s.format
  return start ++ " to " ++ (← r.stop.midnight.format s.format)

/-- The present instant. Date, separator and time make one layout. -/
def renderStamp (s : Settings) (stamp : Stamp) (now : Instant) : Except InvalidLayout String :=
  match stamp with
  | .now => now.format (s.format ++ s.separator ++ s.timeFormat)
  | .today => now.format s.format
  | .time => now.format s.timeFormat

end Settings

end DatePhrase
