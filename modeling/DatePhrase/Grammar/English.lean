import DatePhrase.Grammar.Casual
import DatePhrase.Text.Quoted

/-! The English grammar asks the casual rules first. Unless one of their matches covers the whole
text, a reader of whole phrases is asked as well, and its match comes first. The reader is a
parameter: any function from phrases to readings. -/
namespace DatePhrase
open Text Calendar

/-- What a reader of whole phrases makes of a phrase. -/
inductive PhraseReading where
  | unknown
  /-- The reader breaks down over the phrase. -/
  | broken
  | span (start stop : Instant)
  deriving DecidableEq

/-- A phrase together with how it is to be read. -/
structure PhraseQuery where
  phrase : String
  now : Instant
  /-- Whether ambiguous phrases lie in the past. -/
  past : Bool
  /-- Whether weeks start on Monday. -/
  monday : Bool
  deriving DecidableEq

abbrev PhraseReader := PhraseQuery → PhraseReading

def PhraseReader.silent : PhraseReader := fun _ => .unknown

namespace English

/-- A day states its date, an hour its hour and a minute its minute. -/
def certaintyOf (start stop : Instant) : Certainty :=
  let width := stop.since start
  .ofList ((if width ≤ nanosPerDay then [.year, .month, .day] else []) ++
    (if width ≤ nanosPerHour then [.hour] else []) ++
    (if width ≤ nanosPerMinute then [.minute] else []))

def breakdownText (phrase : String) : String := "two_timer panicked on " ++ quoted phrase

/-- The text without the blanks around it, as one match. -/
def wholePhrase (reader : PhraseReader) (text : String) (o : Options) :
    Except ReadError (Option Match) :=
  let phrase := trim text
  if phrase = "" then .ok none
  else
    match reader ⟨phrase, o.reference, !o.forward, o.weekStart = .monday⟩ with
    | .unknown => .ok none
    | .broken => .error (.failed (breakdownText phrase))
    | .span start stop =>
      let blanks := text.toList.takeWhile isBlank
      .ok (some ⟨Casual.byteLength blanks, phrase, start, certaintyOf start stop⟩)

/-- The casual rules with a reader of whole phrases. -/
def grammar (reader : PhraseReader) (casual : Casual) : Grammar where
  language := casual.language
  read text o := do
    let found ← casual.grammar.read text o
    if found.any (·.length == (trim text).length) then return found
    match ← wholePhrase reader text o with
    | some whole => return whole :: found
    | none => return found

end English

/-- The grammar of a language, when the table has any of its words. -/
def Grammar.ofLanguage? (reader : PhraseReader) (t : Table) (language : String) : Option Grammar :=
  if t.hasLanguage language then
    let casual := Casual.ofTable t language
    some (if language = "en" then English.grammar reader casual else casual.grammar)
  else none

end DatePhrase
