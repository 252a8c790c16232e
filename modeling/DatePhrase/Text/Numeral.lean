/-! Decimal numerals: writing with a width and a fill, reading of plain digit runs. -/
namespace DatePhrase.Text

/-- What fills a numeral up to its width. -/
inductive Fill where
  | none | zeros | spaces
  deriving DecidableEq, Repr

def padStart (width : Nat) (fill : Char) (text : String) : String :=
  String.ofList (text.toList.leftpad width fill)

/-- The sign stands before zeros and after spaces, and counts towards the width. A plus is written
only on demand. -/
def writeInt (fill : Fill) (width : Nat) (plus : Bool) (n : Int) : String :=
  let sign := if n < 0 then "-" else if plus then "+" else ""
  let digits := toString n.natAbs
  match fill with
  | .none => sign ++ digits
  | .zeros => sign ++ padStart (width - sign.length) '0' digits
  | .spaces => padStart width ' ' (sign ++ digits)

def writeNat (fill : Fill) (width n : Nat) : String :=
  writeInt fill width false n

/-- The value of one of the digits 0 to 9. -/
def digitValue? (c : Char) : Option Nat :=
  if '0' ≤ c ∧ c ≤ '9' then some (c.toNat - '0'.toNat) else none

/-- The number that a nonempty run of the digits 0 to 9 writes. -/
def readNat? (digits : List Char) : Option Nat :=
  if digits.isEmpty then none
  else digits.foldlM (fun n c => (digitValue? c).map (10 * n + ·)) 0

end DatePhrase.Text
