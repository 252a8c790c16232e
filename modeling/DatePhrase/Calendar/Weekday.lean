/-! Weekdays, numbered from Sunday. -/
namespace DatePhrase.Calendar

inductive Weekday where
  | sunday | monday | tuesday | wednesday | thursday | friday | saturday
  deriving DecidableEq, Repr

namespace Weekday

/-- Sunday is 0 and Saturday 6. -/
def index : Weekday → Nat
  | sunday => 0 | monday => 1 | tuesday => 2 | wednesday => 3
  | thursday => 4 | friday => 5 | saturday => 6

/-- Indices count on around the week. -/
def ofIndex (n : Nat) : Weekday :=
  match n % 7 with
  | 0 => sunday | 1 => monday | 2 => tuesday | 3 => wednesday
  | 4 => thursday | 5 => friday | _ => saturday

def all : List Weekday :=
  [sunday, monday, tuesday, wednesday, thursday, friday, saturday]

def name : Weekday → String
  | sunday => "sunday" | monday => "monday" | tuesday => "tuesday" | wednesday => "wednesday"
  | thursday => "thursday" | friday => "friday" | saturday => "saturday"

def ofName? (text : String) : Option Weekday :=
  all.find? (·.name == text)

/-- The English name, as dates are written out. -/
def title : Weekday → String
  | sunday => "Sunday" | monday => "Monday" | tuesday => "Tuesday" | wednesday => "Wednesday"
  | thursday => "Thursday" | friday => "Friday" | saturday => "Saturday"

def shortTitle (w : Weekday) : String :=
  String.ofList (w.title.toList.take 3)

/-- Days from `w` ahead to the next `v`, none if they are the same. -/
def daysUntil (w v : Weekday) : Nat :=
  (v.index + 7 - w.index) % 7

theorem index_lt (w : Weekday) : w.index < 7 := by cases w <;> decide

@[simp] theorem ofIndex_index (w : Weekday) : ofIndex w.index = w := by cases w <;> rfl

theorem index_ofIndex (n : Nat) : (ofIndex n).index = n % 7 := by
  have h : n % 7 < 7 := Nat.mod_lt _ (by decide)
  simp only [ofIndex]
  generalize n % 7 = m at *
  match m, h with
  | 0, _ | 1, _ | 2, _ | 3, _ | 4, _ | 5, _ | 6, _ => rfl

@[simp] theorem ofName?_name (w : Weekday) : ofName? w.name = some w := by cases w <;> rfl

theorem daysUntil_lt (w v : Weekday) : w.daysUntil v < 7 := Nat.mod_lt _ (by decide)

theorem daysUntil_self (w : Weekday) : w.daysUntil w = 0 := by cases w <;> rfl

end Weekday

end DatePhrase.Calendar
