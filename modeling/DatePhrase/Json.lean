import DatePhrase.Text.Numeral

/-! JSON text without blanks, as results are handed to other programs. -/
namespace DatePhrase.Json
open Text

/-- Quotes, backslashes and controls are escaped, all else stands as it is. -/
def escape (c : Char) : String :=
  match c with
  | '"' => "\\\""
  | '\\' => "\\\\"
  | '\x08' => "\\b"
  | '\x0c' => "\\f"
  | '\n' => "\\n"
  | '\r' => "\\r"
  | '\t' => "\\t"
  | c =>
    if c.toNat < 0x20 then "\\u" ++ padStart 4 '0' (String.ofList (Nat.toDigits 16 c.toNat))
    else String.ofList [c]

def string (text : String) : String :=
  "\"" ++ String.join (text.toList.map escape) ++ "\""

def boolean (b : Bool) : String := if b then "true" else "false"

def array (items : List String) : String := "[" ++ ",".intercalate items ++ "]"

def object (fields : List (String × String)) : String :=
  "\x7b" ++ ",".intercalate (fields.map fun (name, value) => string name ++ ":" ++ value) ++ "\x7d"

end DatePhrase.Json
