/-! Lengths of time on the clock, in whole seconds. Counts and products are signed words of 64 bits,
and a length is bounded besides; what exceeds either has no answer. -/
namespace DatePhrase.Calendar

/-- The product, if a signed word of 64 bits holds it. -/
def product? (a b : Int) : Option Int :=
  let p := a * b
  if -9223372036854775808 ≤ p ∧ p ≤ 9223372036854775807 then some p else none

/-- The most milliseconds that a length has, either way. -/
def maxMillis : Nat := 9223372036854775807

/-- A length of time, ahead or back. -/
structure Duration where
  seconds : Int
  bounded : 1000 * seconds.natAbs ≤ maxMillis
  deriving DecidableEq

namespace Duration

def ofSeconds? (seconds : Int) : Option Duration :=
  if h : 1000 * seconds.natAbs ≤ maxMillis then some ⟨seconds, h⟩ else none

/-- A counted unit of so many seconds. -/
def ofCount? (count : Int) (unit : Nat) : Option Duration := do
  ofSeconds? (← product? count unit)

end Duration

end DatePhrase.Calendar
