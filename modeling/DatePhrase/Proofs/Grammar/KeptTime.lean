import DatePhrase.Proofs.Calendar.CheckedSteps
import DatePhrase.Proofs.Grammar.Room

/-! What the rules say is what the matches say. Each meaning is described once, by the instants and
components that it can state; a property that follows for all meanings then holds of every match of
the grammar. Main statement: a match that states no time of day, and more than a coming week, month
or year, keeps the time of day of its reference unless that is in a leap second. -/
namespace DatePhrase
open Text Calendar

theorem exists_of_bind_eq_ok {ε α β : Type} {x : Except ε α} {f : α → Except ε β} {b : β}
    (h : x >>= f = .ok b) : ∃ a, x = .ok a ∧ f a = .ok b := by
  cases x with
  | error e => cases h
  | ok a => exact ⟨a, rfl, h⟩

theorem forall_mapM {ε α β : Type} {P : β → Prop} {f : α → Except ε β} {inputs : List α}
    {results : List β} (each : ∀ a ∈ inputs, ∀ b, f a = .ok b → P b)
    (h : inputs.mapM f = .ok results) : ∀ b ∈ results, P b := by
  induction inputs generalizing results with
  | nil =>
    obtain rfl := Except.ok.inj h
    simp
  | cons a inputs ih =>
    rw [List.mapM_cons] at h
    obtain ⟨b, first, h⟩ := exists_of_bind_eq_ok h
    obtain ⟨later, others, h⟩ := exists_of_bind_eq_ok h
    obtain rfl := Except.ok.inj h
    intro c hc
    rcases List.mem_cons.1 hc with rfl | hc
    · exact each a (by simp) c first
    · exact ih (fun d hd => each d (by simp [hd])) others c hc

theorem forall_filterMapM {ε α β : Type} {P : β → Prop} {f : α → Except ε (Option β)}
    {inputs : List α} {results : List β} (each : ∀ a ∈ inputs, ∀ b, f a = .ok (some b) → P b)
    (h : inputs.filterMapM f = .ok results) : ∀ b ∈ results, P b := by
  induction inputs generalizing results with
  | nil =>
    obtain rfl := Except.ok.inj h
    simp
  | cons a inputs ih =>
    rw [List.filterMapM_cons] at h
    obtain ⟨b, first, h⟩ := exists_of_bind_eq_ok h
    have each' : ∀ d ∈ inputs, ∀ b, f d = .ok (some b) → P b := fun d hd => each d (by simp [hd])
    cases b with
    | none => exact ih each' h
    | some b =>
      obtain ⟨later, others, h⟩ := exists_of_bind_eq_ok h
      obtain rfl := Except.ok.inj h
      intro c hc
      rcases List.mem_cons.1 hc with rfl | hc
      · exact each a (by simp) c first
      · exact ih each' others c hc

namespace Casual
variable {g : Casual} {o : Options} {P : Stated → Prop}

/-- Whatever the rule makes of a span has the property. -/
def Rule.Says (rule : Rule) (o : Options) (P : Stated → Prop) : Prop :=
  ∀ s meaning rest, (meaning, rest) ∈ rule s → ∀ stated, meaning o = .ok (some stated) → P stated

theorem mem_of_mem_selectFrom {cursor : Nat} {spans : List (Span Stated)} {s : Span Stated}
    (kept : s ∈ selectFrom cursor spans) : s ∈ spans := by
  induction spans generalizing cursor with
  | nil => cases kept
  | cons r spans ih =>
    rw [selectFrom] at kept
    split at kept
    · exact List.mem_cons_of_mem r (ih kept)
    · rcases List.mem_cons.1 kept with rfl | later
      · exact List.mem_cons_self
      · exact List.mem_cons_of_mem r (ih later)

theorem forall_candidatesOf {text : List Char} {rule : Rule} {spans : List (Span Stated)}
    (sound : rule.Says o P) (h : g.candidatesOf text o rule = .ok spans) :
    ∀ s ∈ spans, P s.value := by
  refine forall_filterMapM (fun span found b mapped => ?_) h
  obtain ⟨s, rest, read⟩ := Cut.mem_scan (List.mem_filter.1 found).1
  obtain ⟨x, meant, mapped⟩ := exists_of_bind_eq_ok mapped
  obtain ⟨stated, rfl, rfl⟩ := Option.map_eq_some_iff.1 (Except.ok.inj mapped)
  exact sound s span.value rest read stated meant

/-- What all rules say, all matches say. -/
theorem forall_matches? {text : List Char} {found : List Match}
    (sound : ∀ rule ∈ g.rules, Rule.Says rule o P) (h : g.matches? text o = .ok found) :
    ∀ m ∈ found, P ⟨m.start, m.certain⟩ := by
  obtain ⟨spans, collected, h⟩ := exists_of_bind_eq_ok h
  obtain rfl := Except.ok.inj h
  intro m hm
  obtain ⟨s, kept, rfl⟩ := List.mem_map.1 hm
  have listed : s ∈ spans := List.mem_mergeSort.1 (mem_of_mem_selectFrom kept)
  rw [candidates, map_eq_pure_bind] at collected
  obtain ⟨parts, each, flat⟩ := exists_of_bind_eq_ok collected
  obtain rfl := Except.ok.inj flat
  obtain ⟨part, hpart, hs⟩ := List.mem_flatten.1 listed
  have all := forall_mapM (fun rule listed b => forall_candidatesOf (sound rule listed)) each
  exact all part hpart s hs

/-- No text of a clock time names a leap second. -/
theorem leap_of_clockTime? {text : List Char} {time : TimeOfDay}
    (read : g.clockTime? text = some time) : time.leap = false := by
  obtain ⟨c, -, timed⟩ := Option.bind_eq_some_iff.1 read
  obtain ⟨hour, -, timed⟩ := Option.bind_eq_some_iff.1 timed
  dsimp only at timed
  split at timed <;>
  · obtain ⟨minute, -, timed⟩ := Option.bind_eq_some_iff.1 timed
    obtain ⟨half, -, timed⟩ := Option.bind_eq_some_iff.1 timed
    exact TimeOfDay.leap_of_ofClock? timed

section Stated
variable {stated : Stated}

theorem eq_of_atTime {s : Stated} {time : Option (List Char)}
    (h : g.atTime s time = some stated) :
    stated = s ∨ ∃ clock, stated = ⟨⟨s.instant.date, clock⟩, s.certain.withClock⟩ := by
  cases time with
  | none => exact .inl (Option.some.inj h).symm
  | some text =>
    obtain ⟨clock, -, made⟩ := Option.bind_eq_some_iff.1 h
    exact .inr ⟨clock, (Option.some.inj made).symm⟩

theorem of_isoMeaning {year month day : List Char}
    (h : isoMeaning year month day o = .ok (some stated)) :
    ∃ date, stated = ⟨⟨date, o.reference.time⟩, .calendarDay⟩ := by
  have read := Except.ok.inj h
  simp only [Option.bind_eq_bind, Option.bind_eq_some_iff, Option.pure_def,
    Option.some.injEq] at read
  obtain ⟨_, -, _, -, _, -, date, -, rfl⟩ := read
  exact ⟨date, rfl⟩

/-- The present instant, or a day from it at its time unless that is in a leap second. -/
theorem of_dayWordMeaning {word : List Char} {time : Option (List Char)}
    (h : g.dayWordMeaning word time o = .ok (some stated)) :
    ∃ i c, g.atTime ⟨i, c⟩ time = some stated ∧
      (o.reference.time.leap = false → i.time = o.reference.time) ∧
      (c = .calendarDay ∨ c = Certainty.calendarDay.withClock) := by
  unfold dayWordMeaning at h
  split at h
  · cases h
  · rename_i meaning _
    cases meaning with
    | now => exact ⟨_, _, Except.ok.inj h, fun _ => rfl, .inr rfl⟩
    | today => exact ⟨_, _, Except.ok.inj h, fun _ => rfl, .inl rfl⟩
    | tomorrow | yesterday =>
      obtain ⟨i, moved, put⟩ := exists_of_bind_eq_ok h
      exact ⟨i, _, Except.ok.inj put,
        fun regular => ((Instant.move_eq_ok_iff_of_regular regular).1 moved).2, .inl rfl⟩

/-- A day at the time of the reference unless that is in a leap second, with forward bias one of
the seven from its own on. -/
theorem of_weekdayMeaning {word : List Char} {time : Option (List Char)}
    (h : g.weekdayMeaning word time o = .ok (some stated)) :
    ∃ base : Instant, g.atTime ⟨base, .ofList [.weekday]⟩ time = some stated ∧
      (o.forward ∨ o.reference.time.leap = false → base.time = o.reference.time) ∧
      (o.forward → o.reference.date.number ≤ base.date.number ∧
        base.date.number ≤ o.reference.date.number + 6) := by
  unfold weekdayMeaning at h
  split at h
  · cases h
  · rename_i day _
    dsimp only at h
    split at h
    · obtain ⟨d, moved, put⟩ := exists_of_bind_eq_ok h
      have number := Date.onOrAfter_eq_ok_iff.1 moved
      have week := o.reference.date.weekday.daysUntil_lt day
      refine ⟨_, Except.ok.inj put, fun _ => rfl, fun _ => ?_⟩
      dsimp only
      omega
    · rename_i plain
      obtain ⟨base, moved, put⟩ := exists_of_bind_eq_ok h
      refine ⟨base, Except.ok.inj put, fun kept => ?_, (absurd · plain)⟩
      exact ((Instant.setWeekday_eq_ok_iff_of_regular (kept.resolve_left plain)).1 moved).2

theorem of_offsetMeaning {amount unit : List Char} {time : Option (List Char)}
    (h : g.offsetMeaning amount unit time o = .ok (some stated)) :
    ∃ (count : Nat) (u : TimeUnit) (base : Instant), o.reference.add? count u = some base ∧
      g.atTime ⟨base, if u.isClock then Certainty.calendarDay.withClock else .calendarDay⟩ time =
        some stated := by
  have read := Except.ok.inj h
  simp only [Option.bind_eq_bind, Option.bind_eq_some_iff] at read
  obtain ⟨count, -, u, -, base, moved, put⟩ := read
  exact ⟨count, u, base, moved, put⟩

theorem of_periodMeaning {unit : List Char} (h : g.periodMeaning unit o = .ok (some stated)) :
    ∃ (u : TimeUnit) (i : Instant),
      stated = ⟨i, if u = .year then .ofList [.year] else .ofList [.year, .month]⟩ := by
  have read := Except.ok.inj h
  simp only [Option.bind_eq_bind, Option.bind_eq_some_iff, Option.pure_def,
    Option.some.injEq] at read
  obtain ⟨u, -, i, -, rfl⟩ := read
  exact ⟨u, i, rfl⟩

theorem of_ordinalMeaning {day : List Char} (h : ordinalMeaning day o = .ok (some stated)) :
    ∃ date, stated = ⟨⟨date, o.reference.time⟩, .ofList [.day]⟩ := by
  have read := Except.ok.inj h
  simp only [Option.bind_eq_bind, Option.bind_eq_some_iff, Option.pure_def,
    Option.some.injEq] at read
  obtain ⟨_, -, date, -, rfl⟩ := read
  exact ⟨date, rfl⟩

/-- Some instant, with forward bias one that is not past. -/
theorem of_timeMeaning {text : List Char} (h : g.timeMeaning text o = .ok (some stated)) :
    ∃ start, stated = ⟨start, .clock⟩ ∧ (o.forward → o.reference ≤ start) := by
  unfold timeMeaning at h
  split at h
  · cases h
  · dsimp only at h
    split at h
    · obtain ⟨start, moved, made⟩ := exists_of_bind_eq_ok h
      have tomorrow := (Instant.move_eq_ok_iff.1 moved).1
      refine ⟨start, (Option.some.inj (Except.ok.inj made)).symm, fun _ => .inl ?_⟩
      rw [Date.lt_iff]
      dsimp only at tomorrow
      omega
    · rename_i later
      refine ⟨_, (Option.some.inj (Except.ok.inj h)).symm, fun forward => ?_⟩
      simp only [forward, Bool.true_and, decide_eq_true_eq] at later
      exact Instant.not_lt_iff.1 later

end Stated

/-- Only a week, month or year to come states its year or month and not its day. -/
def namesPeriod (c : Certainty) : Bool := c.year && !c.day

/-- Without a time of day of its own, what is stated keeps the time of the reference, leap seconds
aside. -/
def KeepsTime (o : Options) (s : Stated) : Prop :=
  o.reference.time.leap = false → s.certain.statesTime = false → namesPeriod s.certain = false →
    s.instant.time = o.reference.time

theorem keepsTime_of_same {i : Instant} (c : Certainty)
    (same : o.reference.time.leap = false → i.time = o.reference.time) : KeepsTime o ⟨i, c⟩ :=
  fun regular _ _ => same regular

theorem keepsTime_of_stated {s : Stated} (states : s.certain.statesTime) : KeepsTime o s := by
  intro _ silent _
  rw [states] at silent
  cases silent

theorem keepsTime_atTime {s stated : Stated} {time : Option (List Char)} (keeps : KeepsTime o s)
    (h : g.atTime s time = some stated) : KeepsTime o stated := by
  rcases eq_of_atTime h with rfl | ⟨clock, rfl⟩
  · exact keeps
  · exact keepsTime_of_stated (by simp [Certainty.statesTime, Certainty.withClock, Certainty.add])

theorem keepsTime_dayWordMeaning (word : List Char) (time : Option (List Char)) {stated : Stated}
    (h : g.dayWordMeaning word time o = .ok (some stated)) : KeepsTime o stated := by
  obtain ⟨i, c, put, same, -⟩ := of_dayWordMeaning h
  exact keepsTime_atTime (keepsTime_of_same c same) put

theorem keepsTime_weekdayMeaning (word : List Char) (time : Option (List Char)) {stated : Stated}
    (h : g.weekdayMeaning word time o = .ok (some stated)) : KeepsTime o stated := by
  obtain ⟨i, put, same, -⟩ := of_weekdayMeaning h
  exact keepsTime_atTime (keepsTime_of_same _ fun regular => same (.inr regular)) put

theorem keepsTime_offsetMeaning (amount unit : List Char) (time : Option (List Char))
    {stated : Stated} (h : g.offsetMeaning amount unit time o = .ok (some stated)) :
    KeepsTime o stated := by
  obtain ⟨count, u, base, moved, put⟩ := of_offsetMeaning h
  refine keepsTime_atTime ?_ put
  cases clock : u.isClock with
  | true => exact keepsTime_of_stated rfl
  | false =>
    exact keepsTime_of_same _ fun regular =>
      (Instant.movesDay_add? clock count).time_of_regular regular moved

theorem keepsTime_periodMeaning (unit : List Char) {stated : Stated}
    (h : g.periodMeaning unit o = .ok (some stated)) : KeepsTime o stated := by
  obtain ⟨u, i, rfl⟩ := of_periodMeaning h
  intro _ _ period
  split at period <;> cases period

/-- Whatever a rule says without a time of day of its own keeps the time of the reference. -/
theorem says_keepsTime {rule : Rule} (listed : rule ∈ g.rules) : rule.Says o (KeepsTime o) := by
  refine means_of_mem_rules
    (P := fun meaning => ∀ stated, meaning o = .ok (some stated) → KeepsTime o stated)
    ?_ (fun word time _ => keepsTime_dayWordMeaning word time)
    (fun word time _ => keepsTime_weekdayMeaning word time)
    (fun amount unit time _ => keepsTime_offsetMeaning amount unit time)
    (fun unit _ => keepsTime_periodMeaning unit) ?_ ?_ listed
  · intro year month day stated h
    obtain ⟨date, rfl⟩ := of_isoMeaning h
    exact keepsTime_of_same _ fun _ => rfl
  · intro day stated h
    obtain ⟨date, rfl⟩ := of_ordinalMeaning h
    exact keepsTime_of_same _ fun _ => rfl
  · intro text stated h
    obtain ⟨start, rfl, -⟩ := of_timeMeaning h
    exact keepsTime_of_stated rfl

end Casual

end DatePhrase
