import DatePhrase.Calendar.Week
import DatePhrase.Vocabulary.Document

/-! User settings and the document that holds them. -/
namespace DatePhrase
open Calendar Toml

structure Settings where
  /-- Languages, the most preferred first. -/
  languages : List String
  weekStart : WeekStart
  /-- Layout of dates. -/
  format : String
  /-- Layout of times of day. -/
  timeFormat : String
  /-- Text between a date and a time. -/
  separator : String
  /-- Path of a vocabulary table to lay over the one at hand. -/
  tablePath : Option String
  deriving DecidableEq, Repr

namespace Settings

def default : Settings where
  languages := [defaultLanguage]
  weekStart := .localeDefault
  format := "%Y-%m-%d"
  timeFormat := "%H:%M"
  separator := " "
  tablePath := none

def string? : Value → Option String
  | .text s => some s
  | _ => none

def strings? : Value → Option (List String)
  | .array items => items.mapM string?
  | _ => none

/-- A bare name, or a table with the name alone and nothing under it. -/
def weekStart? : Value → Option WeekStart
  | .text s => WeekStart.ofName? s
  | .table _ [(name, .array [])] => WeekStart.ofName? name
  | .table _ [(name, .table _ [])] => WeekStart.ofName? name
  | _ => none

mutual

/-- Values under unknown keys are ignored, but their numbers have limits all the same. -/
def isTolerated : Value → Bool
  | .integer n => -(Nat.pow 2 127 : Int) ≤ n && n < Nat.pow 2 128
  | .float inRange => inRange
  | .array items => areTolerated items
  | .table _ entries => areToleratedEntries entries
  | .rows tables => areToleratedRows tables
  | _ => true

def areTolerated : List Value → Bool
  | [] => true
  | v :: rest => isTolerated v && areTolerated rest

def areToleratedEntries : List (String × Value) → Bool
  | [] => true
  | (_, v) :: rest => isTolerated v && areToleratedEntries rest

def areToleratedRows : List (List (String × Value)) → Bool
  | [] => true
  | t :: rest => areToleratedEntries t && areToleratedRows rest

end

/-- Takes one entry of the document into account. -/
def set (s : Settings) (key : String) (value : Value) : Option Settings :=
  if key = "languages" then do return { s with languages := ← strings? value }
  else if key = "week_start" then do return { s with weekStart := ← weekStart? value }
  else if key = "format" then do return { s with format := ← string? value }
  else if key = "time_format" then do return { s with timeFormat := ← string? value }
  else if key = "separator" then do return { s with separator := ← string? value }
  else if key = "translations" then do return { s with tablePath := some (← string? value) }
  else if isTolerated value then some s
  else none

/-- No languages at all stand for the default one. -/
def normalize (s : Settings) : Settings :=
  if s.languages.isEmpty then { s with languages := [defaultLanguage] } else s

/-- Reads settings; keys that the document lacks keep their defaults. -/
def ofDocument? (source : String) : Option Settings := do
  return ((← (← document? source).foldlM (fun s (key, value) => s.set key value) default)).normalize

/-- How a document that holds no settings is reported. -/
def errorText : String := "could not deserialize configuration file"

end Settings

end DatePhrase
