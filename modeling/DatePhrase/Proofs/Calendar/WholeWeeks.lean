import DatePhrase.Proofs.Calendar.CheckedSteps
import DatePhrase.Proofs.Calendar.DaysAhead

/-! Calendar steps a number of days apart. A day whole weeks later is the same weekday, and
a unit of fixed length leads from instants some days apart to instants as many days apart, leap
seconds aside; months and years have no fixed length. Main statement: adding an offset in minutes,
hours, days or weeks commutes with a move by days. -/
namespace DatePhrase.Calendar

namespace Date

theorem weekday_of_weeks {d e : Date} {weeks : Int} (apart : e.number = d.number + 7 * weeks) :
    e.weekday = d.weekday := by
  rw [weekday_eq_iff, d.index_weekday]
  omega

theorem nextAfter_of_weeks {d e next later : Date} {w : Weekday} {weeks : Int}
    (apart : e.number = d.number + 7 * weeks) (found : d.nextAfter w = .ok next)
    (found' : e.nextAfter w = .ok later) : later.number = next.number + 7 * weeks := by
  rw [nextAfter_eq_ok_iff] at found found'
  rw [weekday_of_weeks apart] at found'
  omega

end Date

namespace TimeUnit

/-- The unit is as long wherever it is counted from. -/
def IsExact (u : TimeUnit) : Prop := u ≠ month ∧ u ≠ year

instance (u : TimeUnit) : Decidable u.IsExact := inferInstanceAs (Decidable (_ ∧ _))

theorem IsExact.exists_length {u : TimeUnit} (precise : u.IsExact) :
    ∃ length : Int, ∀ (t : Instant) (count : Int), t.add? count u = t.shift? (count * length) := by
  cases u with
  | minute | hour | day | week => exact ⟨_, Instant.add?_of_seconds rfl⟩
  | month => exact absurd rfl precise.1
  | year => exact absurd rfl precise.2

end TimeUnit

namespace Instant
variable {t u i j : Instant} {n seconds : Int} {o : Offset}

theorem move_of_shift? (regular : t.time.leap = false) (apart : t.move n = .ok u)
    (found : t.shift? seconds = some i) (found' : u.shift? seconds = some j) :
    i.move n = .ok j := by
  rw [move_eq_ok_iff_shift?, shift?_eq_some_iff_of_regular regular] at apart
  rw [shift?_eq_some_iff_of_regular regular] at found
  rw [shift?_eq_some_iff_of_regular apart.2] at found'
  rw [move_eq_ok_iff_shift?, shift?_eq_some_iff_of_regular found.2]
  exact ⟨by omega, found'.2⟩

/-- An offset of fixed length leads to no leap second but from one. -/
theorem regular_of_addOffset? (precise : o.unit.IsExact) (regular : t.time.leap = false)
    (found : t.addOffset? o = some i) : i.time.leap = false := by
  obtain ⟨length, fixed⟩ := precise.exists_length
  rw [addOffset?, fixed] at found
  exact ((shift?_eq_some_iff_of_regular regular).1 found).2

/-- An offset of fixed length leads from instants some days apart to instants as many days apart. -/
theorem move_of_addOffset? (precise : o.unit.IsExact) (regular : t.time.leap = false)
    (apart : t.move n = .ok u) (found : t.addOffset? o = some i)
    (found' : u.addOffset? o = some j) : i.move n = .ok j := by
  obtain ⟨length, fixed⟩ := precise.exists_length
  rw [addOffset?, fixed] at found found'
  exact move_of_shift? regular apart found found'

end Instant

end DatePhrase.Calendar
