/-! Values of a TOML document. -/
namespace DatePhrase.Toml

/-- How a table came to be, which decides what may be added to it. -/
inductive Origin where
  /-- Named by a header of its own. -/
  | header
  /-- Passed through by the path of a header. -/
  | path
  /-- Passed through by a dotted key. -/
  | dotted
  /-- Written between braces, complete. -/
  | inline
  deriving DecidableEq, Repr

inductive Value where
  | text (s : String)
  | integer (n : Int)
  /-- Only whether the number is in the range of double precision. -/
  | float (inRange : Bool)
  | boolean (b : Bool)
  /-- A date, a time or both, in its canonical form. -/
  | moment (s : String)
  | array (items : List Value)
  | table (origin : Origin) (entries : List (String × Value))
  /-- Tables under one name, each from a header between double brackets. -/
  | rows (tables : List (List (String × Value)))

/-- The entries of a table, in the order in which they were first named. -/
abbrev Entries := List (String × Value)

/-- Gives a name that is present another value. -/
def Entries.replace (entries : Entries) (name : String) (value : Value) : Entries :=
  entries.map fun e => if e.1 = name then (name, value) else e

end DatePhrase.Toml
