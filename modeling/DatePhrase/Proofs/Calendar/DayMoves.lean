import DatePhrase.Calendar.Shift
import DatePhrase.Proofs.Calendar.Moves

/-! Steps that move the day and keep the time of day. Where such a step leads depends on the date
alone, whether it has an answer included, and one may follow another. A leap second may be left on
the way, and at the end of a day it may cost a day. Main statements: moves by whole days and to
weekdays are such steps. -/
namespace DatePhrase.Calendar

/-- From all instants of a day but a leap second at its end the step leads to one day, and the time
of day changes as by a step of whole days, outside leap seconds not at all. -/
structure MovesDay (f : Instant → Option Instant) : Prop where
  day : ∀ {t later u : Instant}, ¬ t.time.EndsDay → ¬ later.time.EndsDay →
    later.date = t.date → f t = some u → ∃ v, f later = some v ∧ v.date = u.date
  time : ∀ {t u : Instant}, f t = some u → ∃ n, u.time = t.time.moved n

namespace MovesDay
variable {f h : Instant → Option Instant} {t u : Instant}

theorem time_of_regular (moves : MovesDay f) (regular : t.time.leap = false) (found : f t = some u) :
    u.time = t.time := by
  obtain ⟨n, time⟩ := moves.time found
  rw [time, TimeOfDay.moved_of_regular regular]

theorem early (moves : MovesDay f) (here : ¬ t.time.EndsDay) (found : f t = some u) :
    ¬ u.time.EndsDay := by
  obtain ⟨n, time⟩ := moves.time found
  rw [time]
  exact TimeOfDay.not_endsDay_moved here n

/-- A step on dates, whatever it makes of the time of day. -/
theorem of_date {g : Date → Option Date}
    (days : ∀ t, ¬ t.time.EndsDay → (f t).map (·.date) = g t.date)
    (time : ∀ {t u : Instant}, f t = some u → ∃ n, u.time = t.time.moved n) : MovesDay f where
  time := time
  day := by
    intro t later u here there same found
    have target : (f later).map (·.date) = some u.date := by
      rw [days later there, same, ← days t here, found, Option.map_some]
    exact Option.map_eq_some_iff.1 target

/-- A step on dates with the time of day carried along. -/
theorem of_map {g : Date → Option Date} (step : ∀ t, f t = (g t.date).map (⟨·, t.time⟩)) :
    MovesDay f := by
  refine .of_date (g := g) (fun t _ => ?_) fun {t u} found => ⟨0, ?_⟩
  · rw [step, Option.map_map]
    exact Option.map_id'
  · rw [step] at found
    obtain ⟨d, -, rfl⟩ := Option.map_eq_some_iff.1 found
    exact (TimeOfDay.moved_zero _).symm

protected theorem some : MovesDay some := of_map (g := some) fun _ => rfl

protected theorem bind (first : MovesDay f) (second : MovesDay h) :
    MovesDay fun t => (f t).bind h where
  day := by
    intro t later u here there same found
    obtain ⟨a, stepped, found⟩ := Option.bind_eq_some_iff.1 found
    obtain ⟨b, stepped', sameDay⟩ := first.day here there same stepped
    obtain ⟨v, found', last⟩ := second.day (first.early here stepped) (first.early there stepped')
      sameDay found
    exact ⟨v, Option.bind_eq_some_iff.2 ⟨b, stepped', found'⟩, last⟩
  time := by
    intro t u found
    obtain ⟨a, stepped, found⟩ := Option.bind_eq_some_iff.1 found
    obtain ⟨n, near⟩ := first.time stepped
    obtain ⟨m, far⟩ := second.time found
    obtain ⟨k, both⟩ := t.time.exists_moved_eq n m
    exact ⟨k, by rw [far, near, both]⟩

end MovesDay

namespace Instant

/-- A length in days may depend on the date. -/
theorem movesDay_shift? (days : Date → Int) :
    MovesDay fun t => t.shift? (days t.date * secondsPerDay) := by
  refine .of_date (g := fun d => d.shift? (days d)) (fun t early => ?_) fun {t u} found =>
    ⟨days t.date, ?_⟩
  · rw [shift?_days, TimeOfDay.carry_of_not_endsDay early, Int.natCast_zero, Int.add_zero,
      Option.map_eq_map, Option.map_map]
    exact Option.map_id'
  · rw [shift?_days] at found
    obtain ⟨d, -, rfl⟩ := Option.map_eq_some_iff.1 found
    rfl

theorem toOption_move (t : Instant) (n : Int) :
    (t.move n).toOption = t.shift? (n * secondsPerDay) := by
  unfold move
  cases t.shift? (n * secondsPerDay) <;> rfl

theorem movesDay_move (n : Int) : MovesDay fun t => (t.move n).toOption := by
  simp only [toOption_move]
  exact movesDay_shift? fun _ => n

theorem movesDay_setWeekday (w : Weekday) : MovesDay fun t => (t.setWeekday w).toOption := by
  simp only [setWeekday, toOption_move]
  exact movesDay_shift? fun d => (w.index : Int) - d.weekday.index

end Instant

end DatePhrase.Calendar
