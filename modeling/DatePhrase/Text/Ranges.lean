/-! Sets of characters as ranges of code points. -/
namespace DatePhrase.Text

/-- Ranges of code points, both ends included. -/
abbrev Ranges := List (Nat × Nat)

/-- Whether a code point lies in one of the ranges. -/
def Ranges.has (ranges : Ranges) (point : Nat) : Bool :=
  ranges.any fun (first, last) => first ≤ point && point ≤ last

theorem Ranges.has_iff {ranges : Ranges} {point : Nat} :
    ranges.has point ↔ ∃ r ∈ ranges, r.1 ≤ point ∧ point ≤ r.2 := by
  simp [has]

end DatePhrase.Text
