import DatePhrase.Calendar.Iso
import DatePhrase.Grammar.Basic
import DatePhrase.Phrase.Recognized

/-! The casual grammar of one language: ISO dates, day words, weekdays and offsets with an optional
time, the coming week, month or year, days of the month, and bare clock times. Each rule finds its
spans from left to right; of the spans of all rules the leftmost and then the longest are kept. -/
namespace DatePhrase
open Text Calendar

/-- The words of one language, as the casual grammar needs them. Word lists are in the order in which
they are tried. -/
structure Casual where
  language : String
  immediate : Meanings Immediate
  days : Meanings Weekday
  units : Meanings TimeUnit
  /-- Whether spans end at word boundaries. -/
  bounded : Bool
  immediateWords : List String
  dayWords : List String
  unitWords : List String
  /-- Words for weeks, months and years. -/
  periodWords : List String
  hourSuffix : List String
  minuteSuffix : List String
  clockIntro : List String
  within : List String
  following : List String
  ordinalSuffix : List String

/-- An instant with the components that a text states about it. -/
structure Stated where
  instant : Instant
  certain : Certainty
  deriving DecidableEq

namespace Casual
open Vocabulary (arrange cutBlanks cutGap)

def isPeriod : TimeUnit → Bool
  | .week | .month | .year => true
  | _ => false

/-- A word under several keys takes the first meaning, a day name the last. Word boundaries do not
count where a day word or a weekday is written without spaces. -/
def ofTable (t : Table) (language : String) : Casual :=
  let words := t.words [language]
  let immediate := Vocabulary.meanings (fun i => words i.name) Immediate.all
  let days := (Vocabulary.meanings (fun w => words w.name) Weekday.all).reverse
  let units := Vocabulary.meanings (fun u => words u.name) TimeUnit.all
  let unitWords := units.map (·.1)
  { language, immediate, days, units
    bounded := !(immediate.map (·.1) ++ days.map (·.1)).any fun w => w.toList.any isUnspaced
    immediateWords := arrange (immediate.map (·.1))
    dayWords := arrange (days.map (·.1))
    unitWords := arrange unitWords
    periodWords := arrange (unitWords.filter fun w => (units.lookup w).any isPeriod)
    hourSuffix := arrange (words "hourSuffix")
    minuteSuffix := arrange (words "minuteSuffix")
    clockIntro := arrange (words "at")
    within := arrange (words "in")
    following := arrange (words "next")
    ordinalSuffix := arrange (words "ordinalSuffix") }

/-- The gap behind a word: blanks, which a language without word boundaries may leave out. -/
def cutSpace (g : Casual) : Cut (List Char) := if g.bounded then cutGap else cutBlanks

/-- The written parts of a clock time. -/
structure ClockText where
  hour : List Char
  minute : Option (List Char)
  meridiem : Option (List Char)

/-- The halves of the day, with points first. -/
def meridiems : List String := ["a.m.", "p.m.", "am", "pm"]

/-- An hour, minutes behind a colon or a point if any, and a half of the day. -/
def cutDial : Cut ClockText := do
  let hour ← .oneTo 2 isDigit
  let minute ← Cut.optional do
    let _ ← Cut.char fun c => c = ':' || c = '.'
    Cut.exactly isDigit 2
  let _ ← cutBlanks
  let half ← .oneOf meridiems
  return ⟨hour, minute, some half⟩

/-- An hour and minutes around a colon. -/
def cutColon : Cut ClockText := do
  let hour ← .oneTo 2 isDigit
  let _ ← Cut.char (· = ':')
  let minute ← .exactly isDigit 2
  return ⟨hour, some minute, none⟩

/-- An hour with the language's word for it, then minutes with or without theirs. -/
def cutSuffixed (g : Casual) : Cut ClockText := do
  let hour ← .oneTo 2 isDigit
  let _ ← cutBlanks
  let _ ← .oneOf g.hourSuffix
  let minute ← Cut.optional do
    let _ ← cutBlanks
    Cut.exactly isDigit 2
  let _ ← Cut.optional do
    let _ ← cutBlanks
    Cut.oneOf g.minuteSuffix
  return ⟨hour, minute, none⟩

/-- The alternatives that a clock time is taken apart by. -/
def cutClock (g : Casual) : Cut ClockText := (cutDial.or cutColon).or g.cutSuffixed

/-- An hour, minutes if any and a half of the day, as they are found in a text. -/
def cutTimeDial : Cut Unit := do
  let _ ← .oneTo 2 isDigit
  let _ ← Cut.optional do
    let _ ← Cut.char fun c => c = ':' || c = '.'
    Cut.exactly isDigit 2
  let _ ← cutBlanks
  let _ ← .oneOf meridiems
  return

/-- An hour and minutes around a colon, as they are found in a text. -/
def cutTimeColon : Cut Unit := do
  let _ ← .oneTo 2 isDigit
  let _ ← Cut.char (· = ':')
  let _ ← .exactly isDigit 2
  return

/-- An hour with the language's word for it and minutes, as they are found in a text. -/
def cutTimeSuffixed (g : Casual) : Cut Unit := do
  let _ ← .oneTo 2 isDigit
  let _ ← cutBlanks
  let _ ← .oneOf g.hourSuffix
  let _ ← Cut.optional do
    let _ ← cutBlanks
    Cut.exactly isDigit 2
  let _ ← Cut.optional do
    let _ ← cutBlanks
    Cut.oneOf g.minuteSuffix
  return

/-- The alternatives that a time is found by, alone or at the end of another expression. -/
def cutTime (g : Casual) : Cut Unit := (cutTimeDial.or cutTimeColon).or g.cutTimeSuffixed

/-- The hour of the day for an hour on the dial. -/
def hourOfDay? (half : Option (List Char)) (hour : Nat) : Option Nat :=
  match half with
  | none => some hour
  | some half =>
    if hour < 1 ∨ 12 < hour then none
    else if ['p'].isPrefixOf (lowerChars half) then some (if hour = 12 then 12 else hour + 12)
    else some (if hour = 12 then 0 else hour)

/-- The time that written parts denote, if they are in range. -/
def ClockText.time? (c : ClockText) : Option TimeOfDay := do
  let hour ← readNat? c.hour
  let minute ← match c.minute with
    | some digits => readNat? digits
    | none => some 0
  TimeOfDay.ofClock? (← hourOfDay? c.meridiem hour) minute 0 0

/-- The time that a text writes out. -/
def clockTime? (g : Casual) (text : List Char) : Option TimeOfDay := do
  (← g.cutClock.all? (trimBlanks text)).time?

/-- A time at the end of another expression, if one stands there. -/
def cutTrailing (g : Casual) : Cut (Option (List Char)) := Cut.optional do
  let _ ← Cut.optional do
    let _ ← cutBlanks
    Cut.oneOf g.clockIntro
  let _ ← cutBlanks
  return (← g.cutTime.taken).1

/-- Puts the stated time onto a day; a time out of range voids the whole expression. -/
def atTime (g : Casual) (s : Stated) : Option (List Char) → Option Stated
  | none => some s
  | some text => do
    let time ← g.clockTime? text
    return ⟨⟨s.instant.date, time⟩, s.certain.withClock⟩

abbrev Meaning := Options → Except Fault (Option Stated)

def isoMeaning (year month day : List Char) : Meaning := fun o => pure do
  let date ← Date.ofCivil? (← readNat? year) (← readNat? month) (← readNat? day)
  return ⟨⟨date, o.reference.time⟩, .calendarDay⟩

def dayWordMeaning (g : Casual) (word : List Char) (time : Option (List Char)) : Meaning := fun o =>
  match g.immediate.lookup (asListed word) with
  | none => pure none
  | some word => do
    let stated : Stated ← match word with
      | .now => pure ⟨o.reference, Certainty.calendarDay.withClock⟩
      | .today => pure ⟨o.reference, .calendarDay⟩
      | .tomorrow => pure ⟨← o.reference.move 1, .calendarDay⟩
      | .yesterday => pure ⟨← o.reference.move (-1), .calendarDay⟩
    return g.atTime stated time

def weekdayMeaning (g : Casual) (word : List Char) (time : Option (List Char)) : Meaning := fun o =>
  match g.days.lookup (asListed word) with
  | none => pure none
  | some day => do
    let base : Instant ←
      if o.forward then do pure ⟨← o.reference.date.onOrAfter day, o.reference.time⟩
      else o.reference.setWeekday day
    return g.atTime ⟨base, .ofList [.weekday]⟩ time

def offsetMeaning (g : Casual) (amount unit : List Char) (time : Option (List Char)) : Meaning :=
  fun o => pure do
    let amount ← readNat? amount
    let unit ← g.units.lookup (asListed unit)
    let base ← o.reference.add? amount unit
    let certain : Certainty := if unit.isClock then Certainty.calendarDay.withClock else .calendarDay
    g.atTime ⟨base, certain⟩ time

/-- One week, month or year from the reference. -/
def periodMeaning (g : Casual) (unit : List Char) : Meaning := fun o => pure do
  let unit ← g.units.lookup (asListed unit)
  let certain : Certainty := if unit = .year then .ofList [.year] else .ofList [.year, .month]
  return ⟨← o.reference.add? 1 unit, certain⟩

def ordinalMeaning (day : List Char) : Meaning := fun o => pure do
  let today := o.reference.date
  let date ← Date.ofCivil? today.year today.month (← readNat? day)
  return ⟨⟨date, o.reference.time⟩, .ofList [.day]⟩

/-- A time today; with forward bias tomorrow, if it is past. -/
def timeMeaning (g : Casual) (text : List Char) : Meaning := fun o =>
  match g.clockTime? text with
  | none => pure none
  | some time => do
    let today : Instant := ⟨o.reference.date, time⟩
    let start ← if o.forward && today < o.reference then today.move 1 else pure today
    return some ⟨start, .clock⟩

/-- A rule cuts a span off the text and says what it means. -/
abbrev Rule := Cut Meaning

def isoRule : Rule := do
  let year ← .exactly isDigit 4
  let _ ← Cut.char (· = '-')
  let month ← .oneTo 2 isDigit
  let _ ← Cut.char (· = '-')
  let day ← .oneTo 2 isDigit
  return isoMeaning year month day

def dayWordRule (g : Casual) : Rule := do
  let word ← .oneOf g.immediateWords
  let time ← g.cutTrailing
  return g.dayWordMeaning word time

def weekdayRule (g : Casual) : Rule := do
  let word ← .oneOf g.dayWords
  let time ← g.cutTrailing
  return g.weekdayMeaning word time

def offsetRule (g : Casual) : Rule := do
  let _ ← .oneOf g.within
  let _ ← g.cutSpace
  let amount ← .oneTo 9 isDigit
  let _ ← cutBlanks
  let unit ← .oneOf g.unitWords
  let time ← g.cutTrailing
  return g.offsetMeaning amount unit time

def periodRule (g : Casual) : Rule := do
  let _ ← .oneOf g.following
  let _ ← g.cutSpace
  let unit ← .oneOf g.periodWords
  return g.periodMeaning unit

def ordinalRule (g : Casual) : Rule := do
  let day ← .oneTo 2 isDigit
  let _ ← .oneOf g.ordinalSuffix
  return ordinalMeaning day

def timeRule (g : Casual) : Rule := do
  return g.timeMeaning (← g.cutTime.taken).1

/-- The rules in order of preference between equal spans. -/
def rules (g : Casual) : List Rule :=
  [isoRule, g.dayWordRule, g.weekdayRule, g.offsetRule, g.periodRule, g.ordinalRule, g.timeRule]

/-- Whether no letter or number touches the span, where the language has word boundaries. -/
def isDelimited (g : Casual) (text : List Char) {α : Type} (s : Span α) : Bool :=
  !g.bounded ||
    !((text.take s.start).getLast?.any isAlphanumeric || (text.drop s.stop).head?.any isAlphanumeric)

/-- The spans of one rule that are delimited and mean something. -/
def candidatesOf (g : Casual) (text : List Char) (o : Options) (rule : Rule) :
    Except Fault (List (Span Stated)) :=
  ((rule.scan text).filter (g.isDelimited text ·)).filterMapM fun s => do
    return (← s.value o).map fun stated => ⟨s.start, s.text, stated⟩

/-- The spans of all rules, rule by rule. -/
def candidates (g : Casual) (text : List Char) (o : Options) : Except Fault (List (Span Stated)) :=
  List.flatten <$> g.rules.mapM (g.candidatesOf text o)

/-- Earlier spans come first, of two that start together the longer one. -/
def leads (a b : Span Stated) : Bool :=
  a.start < b.start || (a.start == b.start && b.text.length ≤ a.text.length)

/-- Keeps each span that starts behind those kept before it. -/
def selectFrom : Nat → List (Span Stated) → List (Span Stated)
  | _, [] => []
  | cursor, s :: rest =>
    if s.start < cursor then selectFrom cursor rest else s :: selectFrom s.stop rest

def select (spans : List (Span Stated)) : List (Span Stated) :=
  selectFrom 0 (spans.mergeSort leads)

def byteLength (text : List Char) : Nat := (String.ofList text).utf8ByteSize

def toMatch (text : List Char) (s : Span Stated) : Match :=
  ⟨byteLength (text.take s.start), String.ofList s.text, s.value.instant, s.value.certain⟩

/-- Reads a text; the only failure is a date outside the calendar. -/
def matches? (g : Casual) (text : List Char) (o : Options) : Except Fault (List Match) := do
  return (select (← g.candidates text o)).map (toMatch text)

def grammar (g : Casual) : Grammar where
  language := g.language
  read text o := (g.matches? text.toList o).mapError .ofFault

end Casual

end DatePhrase
