import DatePhrase.Proofs.Calendar.ExactAddition
import DatePhrase.Proofs.Engine.Outcomes

/-! Two offsets, one applied after the other. The first step can only fail where the whole would,
since nothing lies outside the calendar between two of its instants or months. Main statement: two
offsets of fixed length come to their sum in either order; two on the calendar come to the month of
their sum, where the end of the month between shows in the day. -/
namespace DatePhrase
open Calendar

namespace Calendar

/-- The calendar has no gap between two of its months. -/
theorem Date.exists_monthIndex {d e : Date} {index : Int} (lower : d.monthIndex ≤ index)
    (upper : index ≤ e.monthIndex) : ∃ f : Date, f.monthIndex = index := by
  have first := d.monthIndex_bounds
  have last := e.monthIndex_bounds
  obtain ⟨f, found⟩ := d.exists_addMonths? (index - d.monthIndex) (by omega) (by omega)
  obtain ⟨place, -⟩ := Date.addMonths?_eq_some_iff.1 found
  exact ⟨f, by omega⟩

namespace Instant
variable {t u : Instant} {first second : TimeUnit} {a b l m : Nat} {near far : Int}

/-- The calendar has no gap between two of its instants. -/
theorem exists_number {n : Int} (lower : t.number ≤ n) (upper : n ≤ u.number) :
    ∃ i : Instant, i.number = n := by
  have start := t.number_bounds
  have stop := u.number_bounds
  have positive : nanosPerDay = 86400000000000 := by decide
  simp only [positive] at start stop
  let date : Date := ⟨n / 86400000000000, by omega, by omega⟩
  let time : TimeOfDay := ⟨(n % 86400000000000).toNat, by rw [positive]; omega, false⟩
  refine ⟨⟨date, time⟩, ?_⟩
  simp only [number, positive, date, time]
  omega

/-- The calendar has every instant that a step ahead passes on the way. -/
theorem exists_shift? (ahead : 0 ≤ near) (further : 0 ≤ far)
    (reached : t.shift? (near + far) = some u) : ∃ mid, t.shift? near = some mid := by
  obtain ⟨number, -⟩ := shift?_eq_some_iff.1 reached
  rw [origin_of_nonneg (by omega), Int.add_mul] at number
  have near_length : 0 ≤ near * nanosPerSecond := Int.mul_nonneg ahead (Int.natCast_nonneg _)
  have far_length : 0 ≤ far * nanosPerSecond := Int.mul_nonneg further (Int.natCast_nonneg _)
  obtain ⟨mid, place⟩ : ∃ mid : Instant, mid.number = t.number + near * nanosPerSecond :=
    exists_number (t := t) (u := u) (by omega) (by omega)
  cases step : t.shift? near with
  | some mid => exact ⟨mid, rfl⟩
  | none =>
    rw [shift?_eq_none_iff, origin_of_nonneg ahead] at step
    exact absurd place (step mid)

/-- Two steps ahead come to their sum, and a leap second is left unless both have no length. -/
theorem bind_shift? (ahead : 0 ≤ near) (further : 0 ≤ far) :
    ((t.shift? near).bind (·.shift? far)) = t.shift? (near + far) := by
  ext u
  rw [Option.bind_eq_some_iff]
  have sum : ∀ mid, t.shift? near = some mid →
      (mid.shift? far = some u ↔ t.shift? (near + far) = some u) := by
    intro mid step
    obtain ⟨number, leap⟩ := shift?_eq_some_iff.1 step
    have none : (near + far = 0) = (near = 0 ∧ far = 0) := by
      rw [eq_iff_iff]
      omega
    rw [origin_of_nonneg ahead] at number
    rw [shift?_eq_some_iff, shift?_eq_some_iff, origin_of_nonneg further,
      origin_of_nonneg (by omega), number, leap, Bool.and_assoc, Int.add_mul, Int.add_assoc]
    simp only [none, Bool.decide_and]
  constructor
  · rintro ⟨mid, step, reached⟩
    exact (sum mid step).1 reached
  · intro reached
    obtain ⟨mid, step⟩ := exists_shift? ahead further reached
    exact ⟨mid, step, (sum mid step).2 reached⟩

theorem bind_add?_of_seconds (fixed : first.seconds? = some l) (fixed' : second.seconds? = some m) :
    ((t.add? a first).bind (·.add? b second)) = t.shift? (a * l + b * m) := by
  simp only [add?_of_seconds fixed, add?_of_seconds fixed']
  exact bind_shift? (Int.natCast_nonneg (a * l)) (Int.natCast_nonneg (b * m))

/-- The calendar has every month that a step ahead passes on the way. -/
theorem exists_add?_months (counted : first.months? = some l) {d : Date}
    (reached : d.monthIndex = t.date.monthIndex + a * l + b * m) :
    ∃ mid, t.add? a first = some mid ∧ mid.date.monthIndex = t.date.monthIndex + a * l := by
  have ahead : 0 ≤ (a * l : Int) ∧ 0 ≤ (b * m : Int) :=
    ⟨Int.natCast_nonneg (a * l), Int.natCast_nonneg (b * m)⟩
  have start : t.date.monthIndex ≤ t.date.monthIndex + a * l := by omega
  obtain ⟨f, between⟩ := Date.exists_monthIndex (e := d) start (by omega)
  cases here : t.add? a first with
  | none => exact absurd between ((add?_eq_none_iff_monthIndex counted).1 here f)
  | some mid => exact ⟨mid, rfl, ((add?_eq_some_iff_monthIndex counted).1 here).2.1⟩

/-- The day of the month is cut to the month between and then to the last one. -/
theorem bind_add?_eq_some_iff_monthIndex (counted : first.months? = some l)
    (counted' : second.months? = some m) :
    ((t.add? a first).bind (·.add? b second)) = some u ↔ u.time = t.time ∧
      u.date.monthIndex = t.date.monthIndex + a * l + b * m ∧
      u.date.day = min (min t.date.day (monthDays (t.date.monthIndex + a * l)))
        (monthDays (t.date.monthIndex + a * l + b * m)) := by
  rw [Option.bind_eq_some_iff]
  constructor
  · rintro ⟨mid, here, there⟩
    obtain ⟨time, index, day⟩ := (add?_eq_some_iff_monthIndex counted).1 here
    obtain ⟨time', index', day'⟩ := (add?_eq_some_iff_monthIndex counted').1 there
    rw [index] at index' day'
    exact ⟨time'.trans time, index', by rw [day', day]⟩
  · rintro ⟨time, index, day⟩
    obtain ⟨mid, here, -⟩ := exists_add?_months (t := t) counted index
    obtain ⟨time', index', day'⟩ := (add?_eq_some_iff_monthIndex counted).1 here
    refine ⟨mid, here, (add?_eq_some_iff_monthIndex counted').2 ⟨time.trans time'.symm, ?_, ?_⟩⟩
    · rw [index, index']
    · rw [day, index', day']

/-- Two steps fail only where no day of the last month is in the calendar. -/
theorem bind_add?_eq_none_iff_monthIndex (counted : first.months? = some l)
    (counted' : second.months? = some m) :
    ((t.add? a first).bind (·.add? b second)) = none ↔
      ∀ d : Date, d.monthIndex ≠ t.date.monthIndex + a * l + b * m := by
  constructor
  · intro fails d reached
    obtain ⟨mid, here, index⟩ := exists_add?_months (t := t) counted reached
    rw [here, Option.bind_some, add?_eq_none_iff_monthIndex counted', index] at fails
    exact fails d reached
  · intro absent
    rw [Option.eq_none_iff_forall_ne_some]
    intro u found
    exact absent u.date ((bind_add?_eq_some_iff_monthIndex counted counted').1 found).2.1

end Instant

end Calendar

namespace Engine

/-- Two offsets of fixed length name the instant later by their sum, in either order, and none when
the calendar does not have it. Two offsets in months or years name the month later by their sum, at
the same time of day and on the same day as far as both the month between and the last one have it,
and none when no day of the last month is in the calendar. -/
theorem point_combinedOffset (e : Engine) (weekStart : Weekday) (now : Instant) (a b : Nat)
    (u v : TimeUnit) :
    (∀ l m : Nat, u.seconds? = some l → v.seconds? = some m → ∃ point : Option Instant,
      let seconds := a * l + b * m
      let target := now.number + seconds * nanosPerSecond
      e.point weekStart now (.combinedOffset ⟨a, u⟩ ⟨b, v⟩) = pure point ∧
      e.point weekStart now (.combinedOffset ⟨b, v⟩ ⟨a, u⟩) = pure point ∧
      (∀ i, point = some i ↔
        i.number = target ∧ i.time.leap = (now.time.leap && seconds = 0)) ∧
      (point = none ↔ ∀ i : Instant, i.number ≠ target)) ∧
    (∀ l m : Nat, u.months? = some l → v.months? = some m → ∃ point : Option Instant,
      e.point weekStart now (.combinedOffset ⟨a, u⟩ ⟨b, v⟩) = pure point ∧
      (∀ i, point = some i ↔ i.time = now.time ∧
        i.date.monthIndex = now.date.monthIndex + a * l + b * m ∧
        i.date.day = min (min now.date.day (monthDays (now.date.monthIndex + a * l)))
          (monthDays (now.date.monthIndex + a * l + b * m))) ∧
      (point = none ↔ ∀ d : Date, d.monthIndex ≠ now.date.monthIndex + a * l + b * m)) := by
  constructor
  · intro l m fixed fixed'
    have ahead : (0 : Int) ≤ a * l + b * m := Int.natCast_nonneg (a * l + b * m)
    have still : decide ((a * l + b * m : Int) = 0) = decide (a * l + b * m = 0) :=
      decide_eq_decide.2 (by exact_mod_cast Iff.rfl)
    refine ⟨now.shift? (a * l + b * m), congrArg pure ?_, congrArg pure ?_, fun i => ?_, ?_⟩
    · exact Instant.bind_add?_of_seconds fixed fixed'
    · rw [Int.add_comm]
      exact Instant.bind_add?_of_seconds fixed' fixed
    · rw [Instant.shift?_eq_some_iff, Instant.origin_of_nonneg ahead, still]
      simp
    · rw [Instant.shift?_eq_none_iff, Instant.origin_of_nonneg ahead]
      simp
  · intro l m counted counted'
    exact ⟨(now.add? a u).bind (·.add? b v), rfl,
      fun i => Instant.bind_add?_eq_some_iff_monthIndex counted counted',
      Instant.bind_add?_eq_none_iff_monthIndex counted counted'⟩

/-- One month and then two lead from January 31 to April 28, since February ends on the way; the
largest counts of weeks and minutes lead out of the calendar. -/
theorem point_combinedOffset_january :
    let e := ofPool Table.empty ["en"] []
    let now : Instant := ⟨⟨20484, by decide, by decide⟩, ⟨9 * nanosPerHour, by decide, false⟩⟩
    let april : Instant := ⟨⟨20571, by decide, by decide⟩, now.time⟩
    TimeUnit.month.months? = some 1 ∧
      TimeUnit.week.seconds? = some (7 * 24 * 60 * 60) ∧ TimeUnit.minute.seconds? = some 60 ∧
      e.point .sunday now (.combinedOffset ⟨(1 : Nat), .month⟩ ⟨(2 : Nat), .month⟩) =
        pure (some april) ∧
      april.date.monthIndex = now.date.monthIndex + 3 ∧ april.date.day = 28 ∧
      e.point .sunday now (.combinedOffset ⟨maxCount, .week⟩ ⟨maxCount, .minute⟩) = pure none ∧
      e.point .sunday now (.combinedOffset ⟨maxCount, .minute⟩ ⟨maxCount, .week⟩) = pure none := by
  intro e now april
  obtain ⟨-, months⟩ := point_combinedOffset e .sunday now 1 2 .month .month
  obtain ⟨fixed, -⟩ := point_combinedOffset e .sunday now maxCount maxCount .week .minute
  obtain ⟨point, named, leads, -⟩ := months 1 1 rfl rfl
  obtain ⟨far, weeks, minutes, -, outside⟩ := fixed _ _ rfl rfl
  have index : april.date.monthIndex = now.date.monthIndex + 3 := by decide +kernel
  have day : april.date.day = 28 := by decide +kernel
  have found : point = some april := (leads april).2 ⟨rfl, by decide +kernel, by decide +kernel⟩
  have none : far = none := by
    rw [outside]
    intro i
    have within := i.number_bounds
    have start : now.number = 1769850000000000000 := by decide +kernel
    have length : nanosPerDay = 86400000000000 ∧ nanosPerSecond = 1000000000 := by decide
    simp only [firstDay, lastDay, length, maxCount] at within ⊢
    omega
  rw [found] at named
  rw [none] at weeks minutes
  exact ⟨rfl, rfl, rfl, named, index, day, weeks, minutes⟩

end Engine

end DatePhrase
