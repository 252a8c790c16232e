import DatePhrase.Calendar.Civil
import DatePhrase.Text.Numeral
import DatePhrase.Toml.Value

/-! Numbers, truth values, dates and times: the values that stand without quotes. -/
namespace DatePhrase.Toml
open Text

def isDecimal (c : Char) : Bool := (digitValue? c).isSome

/-- The value of a digit of a base up to 16. -/
def digitOf? (base : Nat) (c : Char) : Option Nat :=
  let n := c.toNat
  let value :=
    if '0' ≤ c ∧ c ≤ '9' then n - '0'.toNat
    else if 'a' ≤ c ∧ c ≤ 'f' then n - 'a'.toNat + 10
    else if 'A' ≤ c ∧ c ≤ 'F' then n - 'A'.toNat + 10
    else base
  if value < base then some value else none

/-- Digits without the single underscores that may stand between them. -/
def joined? (base : Nat) (text : List Char) : Option (List Nat) := do
  let parts := text.splitOn '_'
  if parts.any List.isEmpty then none
  parts.flatten.mapM (digitOf? base)

/-- The number that digits write. -/
def ofDigits (base : Nat) (digits : List Nat) : Nat :=
  digits.foldl (fun n d => base * n + d) 0

/-- Whole decimals have no needless zero in front. -/
def wholeDigits? (text : List Char) : Option (List Nat) := do
  let digits ← joined? 10 text
  if 1 < digits.length ∧ digits.head? = some 0 then none else some digits

/-- A sign in front, and what follows it. -/
def splitSign : List Char → Bool × List Char
  | '-' :: rest => (true, rest)
  | '+' :: rest => (false, rest)
  | rest => (false, rest)

def signed (negative : Bool) (n : Nat) : Int := if negative then -n else n

def integer? : List Char → Option Value
  | '0' :: 'x' :: rest => return .integer (ofDigits 16 (← joined? 16 rest))
  | '0' :: 'o' :: rest => return .integer (ofDigits 8 (← joined? 8 rest))
  | '0' :: 'b' :: rest => return .integer (ofDigits 2 (← joined? 2 rest))
  | text => do
    let (negative, rest) := splitSign text
    return .integer (signed negative (ofDigits 10 (← wholeDigits? rest)))

/-- Whether `digits · 10 ^ exponent` rounds to a finite number of double precision. -/
def isFinite (digits : List Nat) (exponent : Int) : Bool :=
  let n := ofDigits 10 digits
  let limit := Nat.pow 2 1024 - Nat.pow 2 970
  let size := (toString n).length + exponent
  if n = 0 || size < 300 then true
  else if 310 < size then false
  else if 0 ≤ exponent then n * Nat.pow 10 exponent.toNat < limit
  else n < limit * Nat.pow 10 (-exponent).toNat

def isExponentMark (c : Char) : Bool := c == 'e' || c == 'E'

/-- The exponent of a float, 0 if none is written. -/
def exponent? : List Char → Option Int
  | [] => some 0
  | _ :: rest => do
    let (negative, digits) := splitSign rest
    return signed negative (ofDigits 10 (← joined? 10 digits))

/-- The digits behind the point of a float, none if there is no point. -/
def decimals? : List Char → Option (List Nat)
  | [] => some []
  | _ :: rest => joined? 10 rest

def float? (text : List Char) : Option Value := do
  let (_, rest) := splitSign text
  if rest = ['i', 'n', 'f'] ∨ rest = ['n', 'a', 'n'] then return .float true
  let mantissa := rest.takeWhile (! isExponentMark ·)
  let whole ← wholeDigits? (mantissa.takeWhile (· ≠ '.'))
  let decimals ← decimals? (mantissa.dropWhile (· ≠ '.'))
  let exponent ← exponent? (rest.dropWhile (! isExponentMark ·))
  return .float (isFinite (whole ++ decimals) (exponent - decimals.length))

/-- Two digits with a value up to a limit, and what follows them. -/
def twoDigits? (limit : Nat) : List Char → Option (Nat × List Char)
  | a :: b :: rest => do
    let n ← readNat? [a, b]
    if n ≤ limit then some (n, rest) else none
  | _ => none

/-- A date in its canonical form, and what follows it. -/
def date? (text : List Char) : Option (String × List Char) := do
  let year ← readNat? (text.take 4)
  let '-' :: rest := text.drop 4 | none
  let (month, '-' :: rest) ← twoDigits? 12 rest | none
  let (day, rest) ← twoDigits? 31 rest
  if Calendar.Civil.isValid ⟨year, month, day⟩ then
    some (writeNat .zeros 4 year ++ "-" ++ writeNat .zeros 2 month ++ "-" ++ writeNat .zeros 2 day,
      rest)
  else none

/-- Up to nine digits of a second, without the zeros at their end. -/
def secondFraction (digits : List Char) : String :=
  let shown := ((digits.take 9).reverse.dropWhile (· = '0')).reverse
  if shown.isEmpty then "" else "." ++ String.ofList shown

/-- A time of day in its canonical form, and what follows it. Seconds that are left out are 0. -/
def time? (text : List Char) : Option (String × List Char) := do
  let (hour, ':' :: rest) ← twoDigits? 23 text | none
  let (minute, rest) ← twoDigits? 59 rest
  let short := writeNat .zeros 2 hour ++ ":" ++ writeNat .zeros 2 minute
  match rest with
  | ':' :: rest =>
    let (second, rest) ← twoDigits? 60 rest
    let full := short ++ ":" ++ writeNat .zeros 2 second
    match rest with
    | '.' :: rest =>
      let digits := rest.takeWhile isDecimal
      if digits.isEmpty then none
      else some (full ++ secondFraction digits, rest.dropWhile isDecimal)
    | rest => some (full, rest)
  | rest => some (short ++ ":00", rest)

/-- The distance from universal time, in its canonical form, up to the end of the text. No distance
has a plus. -/
def offset? : List Char → Option String
  | [] => some ""
  | ['Z'] => some "Z"
  | ['z'] => some "Z"
  | sign :: rest => do
    if sign ≠ '+' ∧ sign ≠ '-' then none
    let (hour, ':' :: rest) ← twoDigits? 23 rest | none
    let (minute, []) ← twoDigits? 59 rest | none
    let shown := if sign = '-' ∧ (hour, minute) ≠ (0, 0) then "-" else "+"
    return shown ++ writeNat .zeros 2 hour ++ ":" ++ writeNat .zeros 2 minute

/-- A date, a time, or both with or without an offset. -/
def moment? (text : List Char) : Option Value :=
  match date? text with
  | some (date, []) => some (.moment date)
  | some (date, separator :: rest) => do
    if separator ≠ 'T' ∧ separator ≠ 't' ∧ separator ≠ ' ' then none
    let (time, rest) ← time? rest
    return .moment (date ++ "T" ++ time ++ (← offset? rest))
  | none => do
    let (time, []) ← time? text | none
    return .moment time

/-- The value of a text without quotes. -/
def scalar? (text : List Char) : Option Value :=
  if text = ['t', 'r', 'u', 'e'] then some (.boolean true)
  else if text = ['f', 'a', 'l', 's', 'e'] then some (.boolean false)
  else integer? text <|> float? text <|> moment? text

end DatePhrase.Toml
