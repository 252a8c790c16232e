import DatePhrase.Text.Cut
import DatePhrase.Text.Numeral
import DatePhrase.Vocabulary.Words

/-! Phrases of a fixed shape, read as a whole: immediate words, one or two offsets, weekday ranges
and weekdays of a chosen week. The shapes are tried in a fixed order and the first that fits wins.
`nextPeriod?` finds the coming week, month or year anywhere in a text. -/
namespace DatePhrase
open Text Calendar

/-- The shapes, in the order in which they are tried. -/
inductive Shape where
  | immediate | combinedOffset | relativeOffset | weekdayRange | weekdayAt | weekday
  deriving DecidableEq, Repr

namespace Shape

def all : List Shape :=
  [immediate, combinedOffset, relativeOffset, weekdayRange, weekdayAt, weekday]

end Shape

/-- What a phrase of a fixed shape says. -/
inductive Recognized where
  | immediate (word : Immediate)
  /-- Two offsets, the first applied first. -/
  | combinedOffset (first second : Offset)
  | relativeOffset (offset : Offset)
  | weekdayRange (first last : Weekday)
  /-- A weekday of a chosen week, and the text that states a time. -/
  | weekdayAt (week : WeekChoice) (day : Weekday) (rest : String)
  | weekday (week : WeekChoice) (day : Weekday)
  deriving DecidableEq, Repr

def Recognized.shape : Recognized → Shape
  | immediate _ => .immediate
  | combinedOffset _ _ => .combinedOffset
  | relativeOffset _ => .relativeOffset
  | weekdayRange _ _ => .weekdayRange
  | weekdayAt _ _ _ => .weekdayAt
  | weekday _ _ => .weekday

/-- The largest count that an offset may state. -/
def maxCount : Nat := 9223372036854775807

/-- A captured word as the vocabulary lists it. -/
def asListed (captured : List Char) : String := String.ofList (lowerChars captured)

namespace Vocabulary

def cutBlanks : Cut (List Char) := .many isBlank

def cutGap : Cut (List Char) := .atLeastOne isBlank

/-- A word that chooses a week, and the gap behind it. -/
def cutChoice (v : Vocabulary) : Cut (List Char) :=
  let spaced := do let _ ← Cut.oneOf v.spacedChoices; cutGap
  let touching := do let _ ← Cut.oneOf v.touchingChoices; cutBlanks
  (·.1) <$> (spaced.or touching).taken

def cutCount (v : Vocabulary) : Cut (List Char × List Char) := do
  let amount ← .atLeastOne isDigit
  let _ ← cutBlanks
  let unit ← .oneOf v.unitWords
  return (amount, unit)

def cutRelative (v : Vocabulary) : Cut (List Char × List Char) := do
  let _ ← cutBlanks
  let _ ← .oneOf v.within
  let _ ← cutGap
  let count ← v.cutCount
  let _ ← cutBlanks
  return count

def cutCombined (v : Vocabulary) : Cut ((List Char × List Char) × (List Char × List Char)) := do
  let _ ← cutBlanks
  let _ ← .oneOf v.within
  let _ ← cutGap
  let first ← v.cutCount
  let _ ← cutGap
  let _ ← .oneOf v.joining
  let _ ← cutGap
  let second ← v.cutCount
  let _ ← cutBlanks
  return (first, second)

def cutRange (v : Vocabulary) : Cut (List Char × List Char) := do
  let _ ← cutBlanks
  let _ ← .oneOf v.opening
  let _ ← cutGap
  let first ← .oneOf v.dayWords
  let _ ← cutGap
  let _ ← .oneOf v.closing
  let _ ← cutGap
  let last ← .oneOf v.dayWords
  let _ ← cutBlanks
  return (first, last)

/-- A choice of week with its gap, and a weekday. -/
def cutDay (v : Vocabulary) : Cut (List Char × List Char) := do
  let _ ← cutBlanks
  let choice ← v.cutChoice
  let day ← .oneOf v.dayWords
  return (choice, day)

def cutWeekday (v : Vocabulary) : Cut (List Char × List Char) := do
  let day ← v.cutDay
  let _ ← cutBlanks
  return day

/-- The text behind the weekday stays on one line. -/
def cutWeekdayAt (v : Vocabulary) : Cut ((List Char × List Char) × List Char) := do
  let day ← v.cutDay
  let _ ← cutGap
  let _ ← .oneOf v.clockIntro
  let _ ← cutGap
  let rest ← .atLeastOne (· ≠ '\n')
  return (day, rest)

/-- The offset of a count, when the number is written in the digits 0 to 9 and not too large. -/
def offsetOf? (v : Vocabulary) (count : List Char × List Char) : Option Offset := do
  let amount ← readNat? count.1
  if amount ≤ maxCount then some ⟨amount, v.unitOf (asListed count.2)⟩ else none

def choiceOf? (v : Vocabulary) (captured : List Char) : Option WeekChoice :=
  v.choice? (asListed (trimEnd captured))

def recognizeAs (v : Vocabulary) (text : String) : Shape → Option Recognized
  | .immediate => (v.immediate.lookup text).map .immediate
  | .combinedOffset => do
    let (first, second) ← v.cutCombined.all? text.toList
    return .combinedOffset (← v.offsetOf? first) (← v.offsetOf? second)
  | .relativeOffset => do
    let count ← v.cutRelative.all? text.toList
    return .relativeOffset (← v.offsetOf? count)
  | .weekdayRange => do
    let (first, last) ← v.cutRange.all? text.toList
    return .weekdayRange (v.dayOf (asListed first)) (v.dayOf (asListed last))
  | .weekdayAt => do
    let ((choice, day), rest) ← v.cutWeekdayAt.all? text.toList
    return .weekdayAt (← v.choiceOf? choice) (v.dayOf (asListed day))
      (String.ofList (trimBlanks rest))
  | .weekday => do
    let (choice, day) ← v.cutWeekday.all? text.toList
    return .weekday (← v.choiceOf? choice) (v.dayOf (asListed day))

/-- Reads a text as the first shape that fits. -/
def recognize (v : Vocabulary) (text : String) : Option Recognized :=
  Shape.all.findSome? (v.recognizeAs text)

/-- A word for "next", a gap and the word behind it. -/
def cutNext (v : Vocabulary) : Cut (List Char) := do
  let _ ← .oneOf v.following
  let _ ← cutGap
  .atLeastOne isWordChar

/-- The week, month or year that the first "next" in a text announces. -/
def nextPeriod? (v : Vocabulary) (text : String) : Option TimeUnit := do
  let found ← (v.cutNext.scan text.toList).head?
  match v.units.lookup (asListed found.value) with
  | some .week => some .week
  | some .month => some .month
  | some .year => some .year
  | _ => none

end Vocabulary

end DatePhrase
