import DatePhrase.Proofs.Calendar.LeapSeconds

/-! Where moves arrive. The week of a day begins on its `sunday`; moving to a weekday stays in that
week, moving by whole weeks keeps the place in it. Main statements: the day number that each move
leads to, room enough for the move to lead anywhere, and that outside leap seconds setting a weekday
looks at nothing of the date but its week. -/
namespace DatePhrase.Calendar

namespace Weekday

theorem index_le (w : Weekday) : w.index ≤ 6 := Nat.le_of_lt_succ w.index_lt

theorem daysUntil_eq (w v : Weekday) : (w.daysUntil v : Int) = ((v.index : Int) - w.index) % 7 := by
  have hw := w.index_lt
  simp only [daysUntil]
  omega

end Weekday

namespace Date

/-- At least `days` days lie between the date and either end of the calendar. -/
def Inside (d : Date) (days : Int) : Prop :=
  firstDay + days ≤ d.number ∧ d.number + days ≤ lastDay

theorem lt_iff {d e : Date} : d < e ↔ d.number < e.number := Iff.rfl

theorem le_iff {d e : Date} : d ≤ e ↔ d.number ≤ e.number := Iff.rfl

instance (d : Date) (days : Int) : Decidable (d.Inside days) :=
  inferInstanceAs (Decidable (_ ∧ _))

theorem Inside.mono {d : Date} {m n : Int} (h : d.Inside n) (hm : m ≤ n) : d.Inside m := by
  obtain ⟨lower, upper⟩ := h
  constructor <;> omega

theorem index_weekday (d : Date) : (d.weekday.index : Int) = (d.number + 4) % 7 := by
  simp only [weekday, Weekday.index_ofIndex]
  omega

/-- The number of the Sunday on which the week of a day begins, be it in the calendar or not. -/
def sunday (d : Date) : Int := d.number - d.weekday.index

theorem index_eq (d : Date) : (d.weekday.index : Int) = d.number - d.sunday := by
  simp only [sunday]
  omega

theorem sunday_le (d : Date) : d.sunday ≤ d.number := by
  simp only [sunday]
  omega

theorem number_le (d : Date) : d.number ≤ d.sunday + 6 := by
  have := d.weekday.index_le
  simp only [sunday]
  omega

theorem sunday_mod (d : Date) : (d.sunday + 4) % 7 = 0 := by
  have := d.index_weekday
  simp only [sunday]
  omega

/-- The week is found from any of its days. -/
theorem sunday_eq {d : Date} {s : Int} {k : Nat} (hs : (s + 4) % 7 = 0) (hk : k ≤ 6)
    (h : d.number = s + k) : d.sunday = s := by
  have := d.index_weekday
  simp only [sunday]
  omega

theorem sunday_add {d e : Date} {n : Int} (h : e.number = d.number + 7 * n) :
    e.sunday = d.sunday + 7 * n := by
  have := d.index_weekday
  have := e.index_weekday
  simp only [sunday]
  omega

theorem exists_move {d : Date} {n : Int} (lower : firstDay ≤ d.number + n)
    (upper : d.number + n ≤ lastDay) : ∃ e, d.move n = .ok e :=
  ⟨⟨_, lower, upper⟩, move_eq_ok_iff.2 rfl⟩

/-- Moves to one day number have one answer, be the day in the calendar or not. -/
theorem move_congr {d e : Date} {m n : Int} (same : d.number + m = e.number + n) :
    d.move m = e.move n := by
  simp only [move, shift?, same]

theorem nextAfter_eq_ok_iff {d e : Date} {w : Weekday} :
    d.nextAfter w = .ok e ↔
      e.number = d.number + if d.weekday = w then 7 else (d.weekday.daysUntil w : Int) := by
  have same : d.weekday.daysUntil w = 0 ↔ d.weekday = w := by
    cases d.weekday <;> cases w <;> decide
  simp only [nextAfter, move_eq_ok_iff, same]

theorem onOrAfter_eq_ok_iff {d e : Date} {w : Weekday} :
    d.onOrAfter w = .ok e ↔ e.number = d.number + d.weekday.daysUntil w := by
  simp only [onOrAfter, move_eq_ok_iff]

theorem exists_nextAfter {d : Date} {w : Weekday} (room : d.Inside 7) :
    ∃ e, d.nextAfter w = .ok e := by
  obtain ⟨lower, upper⟩ := room
  have := d.weekday.daysUntil_lt w
  apply exists_move <;> split <;> omega

theorem exists_onOrAfter {d : Date} {w : Weekday} (upper : d.number + 6 ≤ lastDay) :
    ∃ e, d.onOrAfter w = .ok e := by
  have := d.weekday.daysUntil_lt w
  have := d.first_le
  apply exists_move <;> omega

end Date

namespace Instant
variable {t u v : Instant} {w : Weekday} {n : Int}

/-- Instants are compared by date, and on one date by time. -/
theorem lt_iff : t < u ↔ t.date < u.date ∨ t.date = u.date ∧ t.time < u.time := Iff.rfl

theorem not_lt_iff : ¬ t < u ↔ u ≤ t := by
  change ¬ (t.date < u.date ∨ t.date = u.date ∧ t.time.rank < u.time.rank) ↔
    u.date < t.date ∨ u.date = t.date ∧ u.time.rank ≤ t.time.rank
  simp only [Date.lt_iff, Date.ext_iff]
  omega

theorem exists_move (lower : firstDay ≤ t.date.number + n) (upper : t.date.number + n ≤ lastDay) :
    ∃ u, t.move n = .ok u := by
  have carry := t.time.carry_le n
  have still : 0 ≤ n → t.time.carry n = 0 := TimeOfDay.carry_of_nonneg
  have last := t.date.le_last
  obtain ⟨e, he⟩ := Date.exists_move (d := t.date) (n := n + t.time.carry n) (by omega) (by omega)
  exact ⟨⟨e, t.time.moved n⟩, by rw [move_eq, he]; rfl⟩

theorem setWeekday_eq (t : Instant) (w : Weekday) :
    let days := (w.index : Int) - t.date.weekday.index
    t.setWeekday w = (⟨·, t.time.moved days⟩) <$> t.date.move (days + t.time.carry days) :=
  move_eq t _

theorem setWeekday_eq_ok_iff : t.setWeekday w = .ok u ↔
    u.date.number = t.date.sunday + w.index + t.time.carry (w.index - t.date.weekday.index) ∧
      u.time = t.time.moved (w.index - t.date.weekday.index) := by
  rw [setWeekday, move_eq_ok_iff]
  simp only [Date.sunday]
  constructor <;> rintro ⟨number, time⟩ <;> exact ⟨by omega, time⟩

theorem setWeekday_eq_ok_iff_of_regular (regular : t.time.leap = false) : t.setWeekday w = .ok u ↔
    u.date.number = t.date.sunday + w.index ∧ u.time = t.time := by
  rw [setWeekday, move_eq_ok_iff_of_regular regular]
  simp only [Date.sunday]
  constructor <;> rintro ⟨number, time⟩ <;> exact ⟨by omega, time⟩

/-- Outside leap seconds at the end of the day the weekday is the one asked for. -/
theorem number_of_setWeekday (early : ¬ t.time.EndsDay) (set : t.setWeekday w = .ok u) :
    u.date.number = t.date.sunday + w.index := by
  have number := (setWeekday_eq_ok_iff.1 set).1
  rw [TimeOfDay.carry_of_not_endsDay early] at number
  omega

/-- No step leads to a leap second at the end of the day but from there. -/
theorem not_endsDay_of_move (early : ¬ t.time.EndsDay) (moved : t.move n = .ok u) :
    ¬ u.time.EndsDay := by
  rw [(move_eq_ok_iff.1 moved).2]
  exact TimeOfDay.not_endsDay_moved early n

theorem exists_setWeekday (lower : firstDay ≤ t.date.sunday + w.index)
    (upper : t.date.sunday + w.index ≤ lastDay) : ∃ u, t.setWeekday w = .ok u := by
  simp only [Date.sunday] at lower upper
  apply exists_move <;> omega

/-- Even with a day lost on the way back, the week does not end before the weekday. -/
theorem index_add_carry_le (t : Instant) (w : Weekday) :
    w.index + t.time.carry (w.index - t.date.weekday.index) ≤ 6 := by
  have w_le := w.index_le
  have now_le := t.date.weekday.index_le
  have carry := t.time.carry_le (w.index - t.date.weekday.index)
  have still : 0 ≤ (w.index : Int) - t.date.weekday.index →
    t.time.carry (w.index - t.date.weekday.index) = 0 := TimeOfDay.carry_of_nonneg
  omega

/-- A weekday is looked up in one week from Sunday to Saturday. -/
theorem sunday_of_setWeekday (h : t.setWeekday w = .ok u) : u.date.sunday = t.date.sunday := by
  have number := (setWeekday_eq_ok_iff.1 h).1
  exact Date.sunday_eq t.date.sunday_mod (t.index_add_carry_le w) (by push_cast; omega)

/-- A move by weeks ends so many weeks on, or in the week behind that one if a day is lost. -/
theorem sunday_of_move_bounds (h : t.move (7 * n) = .ok u) :
    t.date.sunday + 7 * n ≤ u.date.sunday ∧
      u.date.sunday ≤ t.date.sunday + 7 * n + 7 * t.time.carry (7 * n) := by
  have number := (move_eq_ok_iff.1 h).1
  have carry := t.time.carry_le (7 * n)
  have here := t.date.index_weekday
  have there := u.date.index_weekday
  simp only [Date.sunday]
  omega

theorem sunday_of_move (none : t.time.carry (7 * n) = 0) (h : t.move (7 * n) = .ok u) :
    u.date.sunday = t.date.sunday + 7 * n := by
  have bounds := sunday_of_move_bounds h
  omega

section
variable (regular : t.time.leap = false)
include regular

theorem sunday_of_move_of_regular (h : t.move (7 * n) = .ok u) :
    u.date.sunday = t.date.sunday + 7 * n :=
  Date.sunday_add ((move_eq_ok_iff_of_regular regular).1 h).1

/-- Which weekday of the week an instant moves to depends on its date alone. -/
theorem setWeekday_of_regular (w : Weekday) : t.setWeekday w =
    (⟨·, t.time⟩) <$> t.date.move ((w.index : Int) - t.date.weekday.index) :=
  move_of_regular regular

/-- Of the date only the week counts. -/
theorem setWeekday_congr (week : u.date.sunday = t.date.sunday) (time : u.time = t.time)
    (w : Weekday) : u.setWeekday w = t.setWeekday w := by
  simp only [Date.sunday] at week
  have target : u.date.number + ((w.index : Int) - u.date.weekday.index) =
      t.date.number + ((w.index : Int) - t.date.weekday.index) := by omega
  rw [setWeekday_of_regular (time ▸ regular), setWeekday_of_regular regular,
    Date.move_congr target, time]

/-- Of two weekdays set in turn the last one stays. -/
theorem setWeekday_of_setWeekday {v : Weekday} (set : t.setWeekday v = .ok u) (w : Weekday) :
    u.setWeekday w = t.setWeekday w :=
  setWeekday_congr regular (sunday_of_setWeekday set)
    ((setWeekday_eq_ok_iff_of_regular regular).1 set).2 w

/-- Whether the week is moved first or the weekday set first makes no difference. -/
theorem setWeekday_of_move (moved : t.move (7 * n) = .ok u) (set : t.setWeekday w = .ok v) :
    u.setWeekday w = v.move (7 * n) := by
  have week := sunday_of_move_of_regular regular moved
  obtain ⟨-, there⟩ := (move_eq_ok_iff_of_regular regular).1 moved
  obtain ⟨place, here⟩ := (setWeekday_eq_ok_iff_of_regular regular).1 set
  simp only [Date.sunday] at week place
  have target : u.date.number + ((w.index : Int) - u.date.weekday.index) =
      v.date.number + 7 * n := by omega
  rw [setWeekday_of_regular (there ▸ regular), move_of_regular (here ▸ regular),
    Date.move_congr target, there, here]

end

end Instant

end DatePhrase.Calendar
