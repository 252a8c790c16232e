import DatePhrase.Calendar.Week

/-! Steps from leap seconds. Any step but that of no length leads to a time without one, and going
back it starts a second later, which in the last second of a day is the next day. Main statements:
which instant lies so many seconds or days from another, in terms of its number and in terms of its
date and its time of day; outside leap seconds days keep the time, and away from the end of the day
a leap second changes no date. -/
namespace DatePhrase.Calendar

namespace TimeOfDay
variable {t : TimeOfDay} {n : Int}

/-- In a leap second at the end of the day. -/
def EndsDay (t : TimeOfDay) : Prop := t.leap ∧ nanosPerDay ≤ t.nanos + nanosPerSecond

instance (t : TimeOfDay) : Decidable t.EndsDay := inferInstanceAs (Decidable (_ ∧ _))

/-- The nanoseconds since midnight from which a step starts, ahead or back. -/
def spent (t : TimeOfDay) (n : Int) : Nat :=
  t.nanos + if t.leap ∧ n < 0 then nanosPerSecond else 0

/-- The time of day that a step by whole days leads to. -/
def moved (t : TimeOfDay) (n : Int) : TimeOfDay :=
  ⟨t.spent n % nanosPerDay, Nat.mod_lt _ (by decide), t.leap && n = 0⟩

/-- The day that is lost by going back from the end of the day. -/
def carry (t : TimeOfDay) (n : Int) : Nat := t.spent n / nanosPerDay

theorem spent_of_nonneg (ahead : 0 ≤ n) : t.spent n = t.nanos := by
  simp [spent, Int.not_lt.2 ahead]

theorem nanos_moved (t : TimeOfDay) (n : Int) : (t.moved n).nanos = t.spent n % nanosPerDay := rfl

theorem leap_moved (t : TimeOfDay) (n : Int) : (t.moved n).leap = (t.leap && n = 0) := rfl

theorem spent_of_regular (regular : t.leap = false) : t.spent n = t.nanos := by
  simp [spent, regular]

theorem spent_lt (t : TimeOfDay) (n : Int) : t.spent n < nanosPerDay + nanosPerSecond := by
  have := t.nanos_lt
  have : 0 < nanosPerSecond := by decide
  simp only [spent]
  split <;> omega

theorem not_endsDay_of_regular (regular : t.leap = false) : ¬ t.EndsDay := by
  simp [EndsDay, regular]

theorem carry_le (t : TimeOfDay) (n : Int) : t.carry n ≤ 1 := by
  have := t.spent_lt n
  have day : nanosPerDay = 86400000000000 := by decide
  have second : nanosPerSecond = 1000000000 := rfl
  simp only [carry, day, second] at *
  omega

@[simp] theorem carry_of_nonneg (ahead : 0 ≤ n) : t.carry n = 0 := by
  rw [carry, spent_of_nonneg ahead, Nat.div_eq_of_lt t.nanos_lt]

theorem carry_of_not_endsDay (early : ¬ t.EndsDay) : t.carry n = 0 := by
  refine Nat.div_eq_of_lt ?_
  have := t.nanos_lt
  simp only [EndsDay, not_and, Nat.not_le] at early
  simp only [spent]
  split
  · rename_i back
    exact early back.1
  · omega

@[simp] theorem moved_zero (t : TimeOfDay) : t.moved 0 = t := by
  ext
  · rw [nanos_moved, spent_of_nonneg (Int.le_refl 0), Nat.mod_eq_of_lt t.nanos_lt]
  · simp [leap_moved]

theorem moved_of_regular (regular : t.leap = false) : t.moved n = t := by
  ext
  · rw [nanos_moved, spent_of_regular regular, Nat.mod_eq_of_lt t.nanos_lt]
  · simp [leap_moved, regular]

/-- Of two steps in turn one at most leaves a leap second. -/
theorem exists_moved_eq (t : TimeOfDay) (n m : Int) : ∃ k, (t.moved n).moved m = t.moved k := by
  by_cases none : n = 0
  · exact ⟨m, by rw [none, moved_zero]⟩
  · have regular : (t.moved n).leap = false := by simp [leap_moved, none]
    exact ⟨n, moved_of_regular regular⟩

/-- No step leads to a leap second at the end of the day but from there. -/
theorem not_endsDay_moved (early : ¬ t.EndsDay) (n : Int) : ¬ (t.moved n).EndsDay := by
  by_cases none : n = 0
  · rwa [none, moved_zero]
  · apply not_endsDay_of_regular
    simp [leap_moved, none]

/-- A clock reading is in no leap second. -/
theorem leap_of_ofClock? {hour minute second nano : Nat}
    (read : ofClock? hour minute second nano = some t) : t.leap = false := by
  unfold ofClock? ofNanos? at read
  split at read
  · split at read
    · obtain rfl := Option.some.inj read
      rfl
    · cases read
  · cases read

theorem since_self (t : TimeOfDay) : t.since t = 0 := by
  simp only [since]
  omega

end TimeOfDay

namespace Instant
variable {t u : Instant} {n seconds : Int}

theorem ofNumber?_eq_some_iff :
    ofNumber? n = some t ↔ t.number = n ∧ t.time.leap = false := by
  constructor
  · intro found
    have positive : nanosPerDay = 86400000000000 := by decide
    simp only [ofNumber?, Option.bind_eq_bind, Option.bind_eq_some_iff, Option.pure_def,
      Option.some.injEq] at found
    obtain ⟨date, day, time, clock, rfl⟩ := found
    rw [Date.ofNumber?_eq_some_iff] at day
    unfold TimeOfDay.ofNanos? at clock
    split at clock
    · obtain rfl := Option.some.inj clock
      refine ⟨?_, rfl⟩
      simp only [number, day, positive]
      omega
    · cases clock
  · rintro ⟨rfl, regular⟩
    exact ofNumber?_number regular

/-- Number and leap second tell instants apart. -/
theorem ext_number (same : t.number = u.number) (leap : t.time.leap = u.time.leap) : t = u := by
  obtain ⟨⟨day, lower, upper⟩, ⟨nanos, nanos_lt, _⟩⟩ := t
  obtain ⟨⟨day', lower', upper'⟩, ⟨nanos', nanos_lt', _⟩⟩ := u
  have positive : nanosPerDay = 86400000000000 := by decide
  rw [positive] at nanos_lt nanos_lt'
  simp only [number, positive] at same leap
  subst leap
  obtain rfl : day = day' := by omega
  obtain rfl : nanos = nanos' := by omega
  rfl

/-- At one time of day two instants are whole days apart. -/
theorem since_of_time (same : t.time = u.time) :
    t.since u = (t.date.number - u.date.number) * nanosPerDay := by
  rw [since, same, TimeOfDay.since_self, Int.add_zero]

theorem origin_of_regular (regular : t.time.leap = false) : t.origin seconds = t.number := by
  simp [origin, regular]

theorem origin_of_nonneg (ahead : 0 ≤ seconds) : t.origin seconds = t.number := by
  simp [origin, Int.not_lt.2 ahead]

/-- Where a step by seconds leads. -/
theorem shift?_eq_some_iff : t.shift? seconds = some u ↔
    u.number = t.origin seconds + seconds * nanosPerSecond ∧
      u.time.leap = (t.time.leap && seconds = 0) := by
  unfold shift?
  split
  · rename_i none
    subst none
    rw [origin_of_nonneg (Int.le_refl 0), Option.some_inj]
    constructor
    · rintro rfl
      simp
    · rintro ⟨same, leap⟩
      exact ext_number (by omega) (by simp [leap])
  · rename_i moves
    simp [ofNumber?_eq_some_iff, moves]

theorem shift?_eq_some_iff_of_regular (regular : t.time.leap = false) :
    t.shift? seconds = some u ↔
      u.number = t.number + seconds * nanosPerSecond ∧ u.time.leap = false := by
  rw [shift?_eq_some_iff, origin_of_regular regular, regular, Bool.false_and]

/-- A step by seconds has no answer only if the calendar has no such number. -/
theorem shift?_eq_none_iff : t.shift? seconds = none ↔
    ∀ u : Instant, u.number ≠ t.origin seconds + seconds * nanosPerSecond := by
  rw [Option.eq_none_iff_forall_ne_some]
  simp only [ne_eq, shift?_eq_some_iff, not_and]
  constructor
  · intro none u same
    let v : Instant := ⟨u.date, ⟨u.time.nanos, u.time.nanos_lt, t.time.leap && seconds = 0⟩⟩
    exact none v same rfl
  · intro none u same
    exact absurd same (none u)

/-- The number of an instant tells its day and its time. -/
theorem number_eq_iff {day : Int} {nanos : Nat} (below : nanos < nanosPerDay) :
    u.number = day * nanosPerDay + nanos ↔ u.date.number = day ∧ u.time.nanos = nanos := by
  have below' := u.time.nanos_lt
  have positive : nanosPerDay = 86400000000000 := by decide
  simp only [number, positive] at *
  omega

/-- The number that a step by whole days leads to. -/
theorem origin_days (t : Instant) (n : Int) :
    t.origin (n * secondsPerDay) + n * secondsPerDay * nanosPerSecond =
      (t.date.number + (n + t.time.carry n)) * nanosPerDay + (t.time.moved n).nanos := by
  have parts : (t.time.carry n : Int) * nanosPerDay + (t.time.moved n).nanos = t.time.spent n := by
    rw [TimeOfDay.carry, TimeOfDay.nanos_moved, Int.mul_comm]
    exact_mod_cast Nat.div_add_mod (t.time.spent n) nanosPerDay
  have back : n * (secondsPerDay : Int) < 0 ↔ n < 0 := by
    simp only [secondsPerDay]
    omega
  have length : (n * secondsPerDay : Int) * nanosPerSecond = n * nanosPerDay := by
    rw [Int.mul_assoc]
    rfl
  have start : t.origin (n * secondsPerDay) = t.date.number * nanosPerDay + t.time.spent n := by
    simp only [origin, number, TimeOfDay.spent, back]
    split <;> simp [Int.add_assoc]
  rw [start, length, Int.add_mul, Int.add_mul]
  omega

/-- Whole days are added on the calendar, up to a day lost in a leap second at the end of one. -/
theorem shift?_days (t : Instant) (n : Int) : t.shift? (n * secondsPerDay) =
    (⟨·, t.time.moved n⟩) <$> t.date.shift? (n + t.time.carry n) := by
  have still : decide (n * (secondsPerDay : Int) = 0) = decide (n = 0) := by
    rw [decide_eq_decide, secondsPerDay]
    omega
  ext ⟨date, time⟩
  rw [shift?_eq_some_iff, origin_days, number_eq_iff (t.time.moved n).nanos_lt, still,
    ← TimeOfDay.leap_moved, and_assoc, ← TimeOfDay.ext_iff]
  simp only [Option.map_eq_map, Option.map_eq_some_iff, mk.injEq, Date.shift?,
    Date.ofNumber?_eq_some_iff]
  constructor
  · rintro ⟨day, rfl⟩
    exact ⟨date, day, rfl, rfl⟩
  · rintro ⟨_, day, rfl, rfl⟩
    exact ⟨day, rfl⟩

theorem move_eq_ok_iff_shift? : t.move n = .ok u ↔ t.shift? (n * secondsPerDay) = some u := by
  unfold move
  cases t.shift? (n * secondsPerDay) <;> simp

theorem move_eq (t : Instant) (n : Int) :
    t.move n = (⟨·, t.time.moved n⟩) <$> t.date.move (n + t.time.carry n) := by
  unfold move Date.move
  rw [shift?_days]
  cases t.date.shift? (n + t.time.carry n) <;> rfl

theorem move_eq_ok_iff : t.move n = .ok u ↔
    u.date.number = t.date.number + n + t.time.carry n ∧ u.time = t.time.moved n := by
  rw [Int.add_assoc, ← Date.move_eq_ok_iff, move_eq]
  obtain ⟨date, time⟩ := u
  cases t.date.move (n + t.time.carry n) with
  | error e => simp [Functor.map, Except.map]
  | ok d => simp [Functor.map, Except.map, eq_comm]

/-- Outside leap seconds days keep the time. -/
theorem move_of_regular (regular : t.time.leap = false) :
    t.move n = (⟨·, t.time⟩) <$> t.date.move n := by
  rw [move_eq, TimeOfDay.moved_of_regular regular,
    TimeOfDay.carry_of_not_endsDay (TimeOfDay.not_endsDay_of_regular regular)]
  simp

theorem move_eq_ok_iff_of_regular (regular : t.time.leap = false) :
    t.move n = .ok u ↔ u.date.number = t.date.number + n ∧ u.time = t.time := by
  rw [move_eq_ok_iff, TimeOfDay.moved_of_regular regular,
    TimeOfDay.carry_of_not_endsDay (TimeOfDay.not_endsDay_of_regular regular)]
  simp

theorem move_zero (t : Instant) : t.move 0 = .ok t := by
  rw [move_eq_ok_iff, TimeOfDay.moved_zero, TimeOfDay.carry_of_nonneg (Int.le_refl 0)]
  simp

end Instant

end DatePhrase.Calendar
