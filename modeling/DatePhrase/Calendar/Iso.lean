import DatePhrase.Calendar.Instant
import DatePhrase.Text.Numeral

/-! The written form of dates and instants: `2026-10-16`, `2026-10-16T09:30:15.250`. Years outside
0 to 9999 carry a sign; a fraction of a second takes the fewest of three, six or nine digits that
are exact. -/
namespace DatePhrase.Calendar
open Text

/-- Four places, and a sign before them outside 0 to 9999. -/
def writeYear (fill : Fill) (year : Int) : String :=
  if 0 ≤ year ∧ year ≤ 9999 then writeInt fill 4 false year else writeInt fill 5 true year

/-- Three, six or nine digits after a point, nothing for a whole second. -/
def writeFraction (nano : Nat) : String :=
  if nano = 0 then ""
  else if nano % 1000000 = 0 then "." ++ writeNat .zeros 3 (nano / 1000000)
  else if nano % 1000 = 0 then "." ++ writeNat .zeros 6 (nano / 1000)
  else "." ++ writeNat .zeros 9 nano

def Date.iso (d : Date) : String :=
  writeYear .zeros d.year ++ "-" ++ writeNat .zeros 2 d.month ++ "-" ++ writeNat .zeros 2 d.day

def TimeOfDay.iso (t : TimeOfDay) : String :=
  writeNat .zeros 2 t.hour ++ ":" ++ writeNat .zeros 2 t.minute ++ ":" ++
    writeNat .zeros 2 t.second ++ writeFraction t.fraction

def Instant.iso (t : Instant) : String :=
  t.date.iso ++ "T" ++ t.time.iso

/-- Reads `+10000-01-01`, `-0001-12-31` and plain years. -/
def Date.ofIso? (text : String) : Option Date := do
  let (negative, digits) := match text.toList with
    | '-' :: rest => (true, rest)
    | '+' :: rest => (false, rest)
    | rest => (false, rest)
  let [year, month, day] := digits.splitOn '-' | none
  let year ← readNat? year
  Date.ofCivil? (if negative then -year else year) (← readNat? month) (← readNat? day)

/-- Hours, minutes and seconds, with up to nine digits after a point. Second 60 is the leap second
behind second 59. -/
def TimeOfDay.ofIso? (text : String) : Option TimeOfDay := do
  let [hour, minute, second] := text.toList.splitOn ':' | none
  let whole := second.takeWhile (· ≠ '.')
  let nano ← match second.dropWhile (· ≠ '.') with
    | [] => some 0
    | _ :: digits => readNat? (digits ++ List.replicate (9 - digits.length) '0')
  let (hour, minute, second) := (← readNat? hour, ← readNat? minute, ← readNat? whole)
  if second = 60 then (TimeOfDay.ofClock? hour minute 59 nano).map TimeOfDay.inLeap
  else TimeOfDay.ofClock? hour minute second nano

def Instant.ofIso? (text : String) : Option Instant := do
  let date := text.toList.takeWhile (· ≠ 'T')
  let time := (text.toList.dropWhile (· ≠ 'T')).drop 1
  return ⟨← Date.ofIso? (String.ofList date), ← TimeOfDay.ofIso? (String.ofList time)⟩

end DatePhrase.Calendar
