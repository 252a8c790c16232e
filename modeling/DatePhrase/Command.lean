import DatePhrase.Json
import DatePhrase.Rendering

/-! The commands and what they print. -/
namespace DatePhrase
open Calendar

inductive OutputFormat where
  | text | json
  deriving DecidableEq, Repr

namespace OutputFormat

def ofName? (text : String) : Option OutputFormat :=
  if text = "text" then some .text else if text = "json" then some .json else none

end OutputFormat

inductive Command where
  | resolve (text : String) (mode : InsertMode) (output : OutputFormat)
  | range (text : String) (output : OutputFormat)
  | hasTime (text : String)
  | stamp (stamp : Stamp)
  deriving DecidableEq, Repr

/-- Why a command prints nothing. -/
inductive CommandError where
  | outOfCalendar
  /-- A layout of the settings is not valid. -/
  | layout (task : String) (cause : InvalidLayout)
  deriving DecidableEq, Repr

/-- What was attempted, and why it failed. -/
def CommandError.message : CommandError → String
  | outOfCalendar => "date out of range"
  | layout task cause => task ++ ": " ++ cause.message

structure Context where
  settings : Settings
  engine : Engine
  now : Instant
  /-- Whether the terminal shows styles. -/
  colors : Bool

namespace Context

def lift {α : Type} (x : Except Fault α) : Except CommandError α :=
  x.mapError fun .outOfCalendar => .outOfCalendar

def attempt {α : Type} (task : String) (x : Except InvalidLayout α) : Except CommandError α :=
  x.mapError (.layout task)

/-- Text in a style of the terminal, by its number. -/
def styled (c : Context) (style : String) (text : String) : String :=
  if c.colors then "\x1b[" ++ style ++ "m" ++ text ++ "\x1b[0m" else text

def bold (c : Context) (text : String) : String := c.styled "1" text

def dim (c : Context) (text : String) : String := c.styled "2" text

/-- The text to insert, or an object with all that was found. -/
def resolve (c : Context) (text : String) (mode : InsertMode) (output : OutputFormat) :
    Except CommandError String := do
  let r ← lift (c.engine.resolve text c.settings.weekStart c.now).outcome
  let insert ← attempt "could not format resolved date" (c.settings.renderInsert mode text r)
  match output with
  | .text => return insert ++ "\n"
  | .json => return Json.object [("text", Json.string text), ("date", Json.string r.date.iso),
      ("has_time", Json.boolean r.hasTime), ("insert", Json.string insert)] ++ "\n"

/-- A day of a listing. Where the date has no text the line breaks off behind its dash. -/
def dayEntry (c : Context) (d : Date) : String :=
  match d.format? c.settings.format with
  | some date => "- " ++ date ++ " " ++ c.dim d.weekday.title ++ "\n"
  | none => "- "

/-- Both ends of a range, and an entry for each day. -/
def listing (c : Context) (r : DateRange) : Except InvalidLayout String := do
  return c.bold (← c.settings.renderRange r) ++ "\n" ++ String.join (r.days.map c.dayEntry)

def rangeJson (r : DateRange) : String :=
  Json.object [("start", Json.string r.start.iso), ("end", Json.string r.stop.iso),
    ("days", Json.array (r.days.map fun d => Json.string d.iso))]

/-- The days of a range; a text that names none is resolved to its date. -/
def range (c : Context) (text : String) (output : OutputFormat) : Except CommandError String := do
  match ← lift (c.engine.range text c.settings.weekStart c.now) with
  | none => c.resolve text .clean output
  | some r =>
    match output with
    | .text => attempt "could not format range" (c.listing r)
    | .json => return rangeJson r ++ "\n"

def run (c : Context) : Command → Except CommandError String
  | .resolve text mode output => c.resolve text mode output
  | .range text output => c.range text output
  | .hasTime text => do
    return (if ← lift (c.engine.hasTime text c.now).outcome then "true\n" else "false\n")
  | .stamp stamp => do
    return (← attempt "could not format timestamp" (c.settings.renderStamp stamp c.now)) ++ "\n"

end Context

end DatePhrase
