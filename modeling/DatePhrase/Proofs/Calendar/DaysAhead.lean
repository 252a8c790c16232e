import DatePhrase.Proofs.Calendar.Moves
import Mathlib.Data.List.Basic

/-! The days ahead of a date. Main statements: `nextAfter` finds the first such weekday behind a
date and `onOrAfter` the first from it on, and `upTo` lists the days from one date to another one by
one, save the calendar's last. -/
namespace DatePhrase.Calendar

theorem Weekday.index_injective : Function.Injective Weekday.index := by
  intro w v same
  rw [← w.ofIndex_index, same, v.ofIndex_index]

namespace Date
variable {d e : Date} {w : Weekday}

/-- The first such weekday after `d`. -/
structure FirstAfter (d : Date) (w : Weekday) (e : Date) : Prop where
  after : d < e
  falls : e.weekday = w
  first : ∀ f : Date, d < f → f.weekday = w → e ≤ f

/-- The first such weekday from `d` on. -/
structure FirstFrom (d : Date) (w : Weekday) (e : Date) : Prop where
  reached : d ≤ e
  falls : e.weekday = w
  first : ∀ f : Date, d ≤ f → f.weekday = w → e ≤ f

theorem weekday_eq_iff : d.weekday = w ↔ (d.number + 4) % 7 = w.index := by
  rw [← d.index_weekday, Int.natCast_inj, Weekday.index_injective.eq_iff]

/-- The next such weekday is at most a week away. -/
theorem nextAfter_eq_ok_iff_of_week : d.nextAfter w = .ok e ↔
    d.number < e.number ∧ e.number ≤ d.number + 7 ∧ e.weekday = w := by
  have w_lt := w.index_lt
  have today := d.index_weekday
  rw [nextAfter_eq_ok_iff, Weekday.daysUntil_eq, weekday_eq_iff (d := e)]
  split
  · rename_i same
    rw [weekday_eq_iff] at same
    omega
  · rename_i other
    rw [weekday_eq_iff] at other
    omega

/-- From a weekday on, the next one of its name is less than a week away. -/
theorem onOrAfter_eq_ok_iff_of_week : d.onOrAfter w = .ok e ↔
    d.number ≤ e.number ∧ e.number < d.number + 7 ∧ e.weekday = w := by
  have w_lt := w.index_lt
  have today := d.index_weekday
  rw [onOrAfter_eq_ok_iff, Weekday.daysUntil_eq, weekday_eq_iff (d := e)]
  omega

/-- Seven days in a row have each weekday once, so that the first of a name is the one among them. -/
theorem first_iff_of_week {n : Int} (inside : firstDay ≤ n) :
    (n ≤ e.number ∧ e.weekday = w ∧ ∀ f : Date, n ≤ f.number → f.weekday = w →
      e.number ≤ f.number) ↔ n ≤ e.number ∧ e.number < n + 7 ∧ e.weekday = w := by
  constructor
  · rintro ⟨reached, falls, first⟩
    refine ⟨reached, Int.not_le.1 fun far => ?_, falls⟩
    -- the same weekday a week before would come first
    have upper := e.le_last
    obtain ⟨f, hf⟩ := exists_move (d := e) (n := -7) (by omega) (by omega)
    have number := move_eq_ok_iff.1 hf
    have same : f.weekday = w := by
      rw [weekday_eq_iff] at falls ⊢
      omega
    have least := first f (by omega) same
    omega
  · rintro ⟨reached, soon, falls⟩
    refine ⟨reached, falls, fun f later same => ?_⟩
    rw [weekday_eq_iff] at falls same
    omega

/-- The next such weekday is the first of them after the date. -/
theorem nextAfter_eq_ok_iff_firstAfter : d.nextAfter w = .ok e ↔ d.FirstAfter w e := by
  have lower := d.first_le
  have week := first_iff_of_week (e := e) (w := w) (n := d.number + 1) (by omega)
  rw [nextAfter_eq_ok_iff_of_week]
  constructor
  · rintro ⟨after, soon, falls⟩
    obtain ⟨-, -, first⟩ := week.2 ⟨by omega, by omega, falls⟩
    exact ⟨after, falls, first⟩
  · rintro ⟨after, falls, first⟩
    obtain ⟨-, soon, -⟩ := week.1 ⟨after, falls, first⟩
    exact ⟨after, by omega, falls⟩

/-- The next such weekday from the date on is the first of them. -/
theorem onOrAfter_eq_ok_iff_firstFrom : d.onOrAfter w = .ok e ↔ d.FirstFrom w e := by
  rw [onOrAfter_eq_ok_iff_of_week, ← first_iff_of_week d.first_le]
  exact ⟨fun ⟨reached, falls, first⟩ => ⟨reached, falls, first⟩,
    fun ⟨reached, falls, first⟩ => ⟨reached, falls, first⟩⟩

/-- The walk gives a day only with the day after it. -/
theorem next?_eq_some_iff {f : Date} :
    d.next? = some (e, f) ↔ e = d ∧ f.number = d.number + 1 := by
  simp only [next?, shift?, Option.map_eq_some_iff, Prod.mk.injEq, ofNumber?_eq_some_iff]
  constructor
  · rintro ⟨_, after, rfl, rfl⟩
    exact ⟨rfl, after⟩
  · rintro ⟨rfl, after⟩
    exact ⟨f, after, rfl, rfl⟩

/-- Only the calendar's last day has no day after it. -/
theorem next?_eq_none_iff : d.next? = none ↔ d.number = lastDay := by
  have lower := d.first_le
  have upper := d.le_last
  rw [next?, Option.map_eq_none_iff, shift?, ofNumber?_eq_none_iff]
  omega

/-- Steps beyond those that the walk takes add no days. -/
theorem walk_congr {stop : Date} {steps more : Nat} : ∀ {d : Date},
    stop.number + 1 ≤ d.number + steps → stop.number + 1 ≤ d.number + more →
      walk stop steps d = walk stop more d := by
  have stopped : ∀ {d : Date} {steps : Nat}, stop.number < d.number → walk stop steps d = [] := by
    intro d steps behind
    cases steps with
    | zero => rfl
    | succ steps =>
      cases step : d.next? with
      | none => simp only [walk, step]
      | some days =>
        obtain ⟨rfl, -⟩ := next?_eq_some_iff.1 step
        simp only [walk, step, le_iff, Int.not_le.2 behind, if_false]
  induction steps generalizing more with
  | zero =>
    intro d enough _
    rw [stopped (by omega), stopped (by omega)]
  | succ steps ih =>
    intro d enough enough'
    cases more with
    | zero => rw [stopped (by omega), stopped (by omega)]
    | succ more =>
      cases step : d.next? with
      | none => simp only [walk, step]
      | some days =>
        obtain ⟨rfl, after⟩ := next?_eq_some_iff.1 step
        have others : walk stop steps days.2 = walk stop more days.2 := ih (by omega) (by omega)
        simp only [walk, step, others]

/-- The walk goes on from day to day until there is no next one or the day is behind `stop`; it does
not run out of steps. -/
theorem upTo_eq (start stop : Date) : start.upTo stop =
    match start.next? with
    | none => []
    | some (day, rest) => if day ≤ stop then day :: rest.upTo stop else [] := by
  rw [upTo, walk]
  cases step : start.next? with
  | none => rfl
  | some days =>
    obtain ⟨rfl, after⟩ := next?_eq_some_iff.1 step
    have others : walk stop ((stop.number - days.1.number).toNat + 1) days.2 =
        days.2.upTo stop := walk_congr (by omega) (by omega)
    simp only [others]

/-- A run of days begins with its first day and goes on day by day. It ends with its last day, or
with the day before if that is the last of the calendar. -/
theorem numbers_upTo_eq (start stop : Date) :
    (start.upTo stop).map (·.number) =
      (List.range (min stop.number (lastDay - 1) - start.number + 1).toNat).map
        fun n : Nat => start.number + n := by
  -- on the days of the calendar that are left, along the walk
  induction left : (lastDay - start.number).toNat generalizing start with
  | zero =>
    have last : start.next? = none := next?_eq_none_iff.2 (by have := start.le_last; omega)
    have none : (min stop.number (lastDay - 1) - start.number + 1).toNat = 0 := by omega
    rw [upTo_eq, last, none]
    rfl
  | succ left ih =>
    cases step : start.next? with
    | none =>
      have last := next?_eq_none_iff.1 step
      omega
    | some days =>
      obtain ⟨rfl, after⟩ := next?_eq_some_iff.1 step
      rw [upTo_eq, step]
      dsimp only
      split
      · rename_i reached
        rw [le_iff] at reached
        have count : (min stop.number (lastDay - 1) - days.1.number + 1).toNat =
            (min stop.number (lastDay - 1) - days.2.number + 1).toNat + 1 := by omega
        rw [List.map_cons, ih days.2 (by omega), count, List.range_succ_eq_map, List.map_cons,
          List.map_map]
        congr 1
        · omega
        · refine List.map_congr_left fun n _ => ?_
          simp only [Function.comp_apply]
          omega
      · rename_i behind
        rw [le_iff] at behind
        have none : (min stop.number (lastDay - 1) - days.1.number + 1).toNat = 0 := by omega
        rw [none]
        rfl

/-- A run of days has each day from the first to the last. -/
theorem numbers_upTo {start stop : Date} (listed : stop.number < lastDay) :
    (start.upTo stop).map (·.number) =
      (List.range (stop.number - start.number + 1).toNat).map fun n : Nat => start.number + n := by
  have last : min stop.number (lastDay - 1) = stop.number := by omega
  rw [numbers_upTo_eq, last]

end Date

/-- Setting a weekday leads to it, unless a day is lost in a leap second. -/
theorem Instant.weekday_of_setWeekday {t u : Instant} {w : Weekday} (early : ¬ t.time.EndsDay)
    (set : t.setWeekday w = .ok u) : u.date.weekday = w := by
  have number := number_of_setWeekday early set
  have week := t.date.sunday_mod
  have within := w.index_le
  rw [Date.weekday_eq_iff]
  omega

end DatePhrase.Calendar
