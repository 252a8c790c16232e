import DatePhrase.Proofs.Grammar.GreedyMatches
import DatePhrase.Proofs.Grammar.Lockstep

/-! Readings into the future against plain ones. What a rule states tells weekdays, bare times and
all else apart: only the first are certain of a weekday, only the second of nothing but a time. Main
statements: a reading into the future has the matches of a plain one, weekdays at most a week and
bare times at most a day later; and of its weekdays and bare times, the past ones are the weekdays
that are today at a stated time which is past. -/
namespace DatePhrase
open Text Calendar

namespace Casual
variable {g : Casual} {o : Options} {text : List Char} {rule : Rule} {m : Match} {P : Stated → Prop}

/-- What all that the rule says has, its offers have. -/
theorem Offers.of_says (offered : g.Offers rule text o m) (sound : rule.Says o P) :
    P ⟨m.start, m.certain⟩ := by
  obtain ⟨span, scanned, -, stated, meant, rfl⟩ := offered
  obtain ⟨rest, after, read⟩ := Cut.mem_scan scanned
  exact sound rest span.value after read stated meant

section Certain

/-- A date that is stated by its year or its day, and not by its weekday. -/
def IsDated (c : Certainty) : Prop := (c.year ∨ c.day) ∧ c.weekday = false

instance (c : Certainty) : Decidable (IsDated c) := inferInstanceAs (Decidable (_ ∧ _))

theorem isDated_calendarDay : IsDated .calendarDay := by decide

theorem isDated_atTime {s stated : Stated} {time : Option (List Char)} (dated : IsDated s.certain)
    (h : g.atTime s time = some stated) : IsDated stated.certain := by
  rcases eq_of_atTime h with rfl | ⟨clock, rfl⟩ <;> exact dated

/-- All but weekdays and bare times state a year or a day. -/
theorem says_isDated (listed : rule ∈ g.rules) (weekday : rule ≠ g.weekdayRule)
    (time : rule ≠ g.timeRule) : rule.Says o fun s => IsDated s.certain := by
  simp only [rules, List.mem_cons, List.not_mem_nil, or_false] at listed
  rcases listed with rfl | rfl | rfl | rfl | rfl | rfl | rfl
  · refine means_isoRule fun year month day stated h => ?_
    obtain ⟨date, rfl⟩ := of_isoMeaning h
    exact isDated_calendarDay
  · refine means_dayWordRule fun word trailing stated h => ?_
    obtain ⟨i, c, put, -, rfl | rfl⟩ := of_dayWordMeaning h <;>
      exact isDated_atTime isDated_calendarDay put
  · exact absurd rfl weekday
  · refine means_offsetRule fun amount unit trailing stated h => ?_
    obtain ⟨count, u, base, -, put⟩ := of_offsetMeaning h
    refine isDated_atTime ?_ put
    dsimp only
    split <;> exact isDated_calendarDay
  · refine means_periodRule fun unit stated h => ?_
    obtain ⟨u, i, rfl⟩ := of_periodMeaning h
    dsimp only
    split <;> exact ⟨.inl rfl, rfl⟩
  · refine means_ordinalRule fun day stated h => ?_
    obtain ⟨date, rfl⟩ := of_ordinalMeaning h
    exact ⟨.inr rfl, rfl⟩
  · exact absurd rfl time

/-- A weekday, at a stated time or at that of the reference. Read into the future it is on one of the
seven days from today on. -/
structure IsWeekday (o : Options) (s : Stated) : Prop where
  weekday : s.certain.weekday
  soon : o.forward → o.reference.date.number ≤ s.instant.date.number ∧
    s.instant.date.number ≤ o.reference.date.number + 6
  untimed : o.forward → s.certain.statesTime = false → s.instant.time = o.reference.time

theorem says_isWeekday : g.weekdayRule.Says o (IsWeekday o) := by
  refine means_weekdayRule fun word time stated h => ?_
  obtain ⟨base, put, kept, soon⟩ := of_weekdayMeaning h
  rcases eq_of_atTime put with rfl | ⟨clock, rfl⟩
  · exact ⟨rfl, soon, fun forward _ => kept (.inl forward)⟩
  · exact ⟨rfl, soon, nofun⟩

/-- A bare time, read into the future, is not past. -/
structure IsBareTime (o : Options) (s : Stated) : Prop where
  certain : s.certain = .clock
  ahead : o.forward → o.reference ≤ s.instant

theorem says_isBareTime : g.timeRule.Says o (IsBareTime o) := by
  refine means_timeRule fun text stated h => ?_
  obtain ⟨start, rfl, ahead⟩ := of_timeMeaning h
  exact ⟨rfl, ahead⟩

end Certain

section Coupled
variable {now : Instant} {w w' : Weekday} {days : Int}

/-- The days by which what is stated may come later with forward bias. -/
def IsBias (c : Certainty) (days : Int) : Prop :=
  days = 0 ∨ c.weekday ∧ days = 7 ∨ c = .clock ∧ days = 1

/-- The first is what a reading into the future says where a plain one says the second. From a leap
second the plain reading of a weekday leads to another time of day, and maybe another day. -/
structure Biased (now : Instant) (s s' : Stated) : Prop where
  certain : s.certain = s'.certain
  later : now.time.leap = false ∨ s.certain.weekday = false → s.instant.time = s'.instant.time ∧
    ∃ days, s.instant.date.number = s'.instant.date.number + days ∧ IsBias s.certain days

theorem biased_refl (s : Stated) : Biased now s s := ⟨rfl, fun _ => ⟨rfl, 0, by omega, .inl rfl⟩⟩

theorem biased_atTime {s s' : Stated} (biased : Biased now s s') (named : s.certain.weekday)
    (time : Option (List Char)) :
    Option.Rel (Biased now) (g.atTime s time) (g.atTime s' time) := by
  refine rel_atTime biased (fun clock => ?_) time
  refine ⟨congrArg Certainty.withClock biased.certain, fun either => ⟨rfl, ?_⟩⟩
  have kept : s.certain.withClock.weekday = true := named
  have regular : now.time.leap = false := either.resolve_right (by simp [kept])
  obtain ⟨-, days, later, bias⟩ := biased.later (.inl regular)
  refine ⟨days, later, ?_⟩
  rcases bias with none | ⟨-, week⟩ | ⟨bare, -⟩
  · exact .inl none
  · exact .inr (.inl ⟨named, week⟩)
  · rw [bare] at named
    cases named

/-- The weekday from Sunday to Saturday around today, or with forward bias the first from today on:
the same day, or a week later if the former is past. -/
theorem couples_biased_weekday (room : Options.HasRoom ⟨now, true, w⟩) (word : List Char)
    (time : Option (List Char)) :
    Meaning.Couples (g.weekdayMeaning word time) ⟨now, true, w⟩ ⟨now, false, w'⟩ (Biased now) := by
  simp only [Meaning.Couples, weekdayMeaning]
  cases g.days.lookup (asListed word) with
  | none => exact ⟨none, none, rfl, rfl, .none⟩
  | some day =>
    obtain ⟨d, (ahead : now.date.onOrAfter day = .ok d)⟩ :=
      Date.exists_onOrAfter (w := day) (room.ahead rfl)
    obtain ⟨i, (within : now.setWeekday day = .ok i)⟩ := room.exists_setWeekday day
    have later (regular : now.time.leap = false) : now.time = i.time ∧
        ∃ days, d.number = i.date.number + days ∧ IsBias (.ofList [.weekday]) days := by
      obtain ⟨near, kept⟩ := (Instant.setWeekday_eq_ok_iff_of_regular regular).1 within
      have first := Date.onOrAfter_eq_ok_iff.1 ahead
      have today := now.date.index_eq
      have day_lt := day.index_lt
      have today_lt := now.date.weekday.index_lt
      rw [Weekday.daysUntil_eq] at first
      refine ⟨kept.symm, ?_⟩
      by_cases passed : day.index < now.date.weekday.index
      · exact ⟨7, by omega, .inr (.inl ⟨rfl, rfl⟩)⟩
      · exact ⟨0, by omega, .inl rfl⟩
    have biased : Biased now ⟨⟨d, now.time⟩, .ofList [.weekday]⟩ ⟨i, .ofList [.weekday]⟩ :=
      ⟨rfl, fun either => later (either.resolve_right nofun)⟩
    exact ⟨_, _, by simp only [ahead]; rfl, by simp only [within]; rfl,
      biased_atTime biased rfl time⟩

/-- Today, or with forward bias tomorrow if that is past. -/
theorem couples_biased_time (room : Options.HasRoom ⟨now, true, w⟩) (text : List Char) :
    Meaning.Couples (g.timeMeaning text) ⟨now, true, w⟩ ⟨now, false, w'⟩ (Biased now) := by
  simp only [Meaning.Couples, timeMeaning]
  cases clock : g.clockTime? text with
  | none => exact ⟨none, none, rfl, rfl, .none⟩
  | some time =>
    by_cases past : (⟨now.date, time⟩ : Instant) < now
    · have upper := room.ahead rfl
      have lower := now.date.first_le
      obtain ⟨i, moved⟩ := Instant.exists_move (t := ⟨now.date, time⟩) (n := 1)
        (by simp only; omega) (by simp only at *; omega)
      obtain ⟨date, same⟩ :=
        (Instant.move_eq_ok_iff_of_regular (leap_of_clockTime? clock)).1 moved
      refine ⟨some ⟨i, .clock⟩, some ⟨⟨now.date, time⟩, .clock⟩, ?_, rfl,
        .some ⟨rfl, fun _ => ⟨same, 1, date, .inr (.inr ⟨rfl, rfl⟩)⟩⟩⟩
      simp only [past, decide_true, Bool.and_self, if_true, moved]
      rfl
    · refine ⟨some ⟨⟨now.date, time⟩, .clock⟩, _, ?_, rfl, .some (biased_refl _)⟩
      simp only [past, decide_false, Bool.and_false]
      rfl

theorem couples_biased (room : Options.HasRoom ⟨now, true, w⟩) (listed : rule ∈ g.rules) :
    rule.Couples ⟨now, true, w⟩ ⟨now, false, w'⟩ (Biased now) :=
  means_of_mem_rules (P := (Meaning.Couples · ⟨now, true, w⟩ ⟨now, false, w'⟩ (Biased now)))
    (fun _ _ _ => couples_of_eq biased_refl rfl ⟨_, rfl⟩)
    (fun word time => couples_of_eq biased_refl rfl (exists_dayWordMeaning room word time))
    (couples_biased_weekday room)
    (fun _ _ _ => couples_of_eq biased_refl rfl ⟨_, rfl⟩)
    (fun _ => couples_of_eq biased_refl rfl ⟨_, rfl⟩)
    (fun _ => couples_of_eq biased_refl rfl ⟨_, rfl⟩)
    (couples_biased_time room) listed

/-- The days by which a match of the rule may come later with forward bias. -/
def Adds (g : Casual) (rule : Rule) (days : Int) : Prop :=
  (rule = g.weekdayRule → days = 0 ∨ days = 7) ∧ (rule = g.timeRule → days = 0 ∨ days = 1) ∧
    (rule ≠ g.weekdayRule → rule ≠ g.timeRule → days = 0)

/-- The components that a match states tell its rule apart as far as the bias needs it. -/
theorem adds_of_isBias (listed : rule ∈ g.rules) (offered : g.Offers rule text o m)
    (bias : IsBias m.certain days) : g.Adds rule days := by
  refine ⟨?_, ?_, fun weekday time => ?_⟩
  · rintro rfl
    have named : m.certain.weekday := (offered.of_says says_isWeekday).weekday
    rcases bias with none | ⟨-, week⟩ | ⟨bare, -⟩
    · exact .inl none
    · exact .inr week
    · rw [bare] at named
      cases named
  · rintro rfl
    have bare : m.certain = .clock := (offered.of_says says_isBareTime).certain
    rcases bias with none | ⟨named, -⟩ | ⟨-, day⟩
    · exact .inl none
    · rw [bare] at named
      cases named
    · exact .inr day
  · obtain ⟨dated, unnamed⟩ : IsDated m.certain :=
      offered.of_says (says_isDated listed weekday time)
    rcases bias with none | ⟨named, -⟩ | ⟨bare, -⟩
    · exact none
    · rw [unnamed] at named
      cases named
    · rw [bare] at dated
      rcases dated with year | day
      · cases year
      · cases day

/-- A match with forward bias and the match without it: the same text in the same place, with the
same certainty, later by no more days than a rule that offers either may add. Weekdays from a leap
second are left out of the last. -/
structure Ahead (g : Casual) (whole : List Char) (o o' : Options) (m m' : Match) : Prop where
  index : m.index = m'.index
  text : m.text = m'.text
  certain : m.certain = m'.certain
  later : o.reference.time.leap = false ∨ m.certain.weekday = false →
    ∃ days : Int, m.start.since m'.start = days * nanosPerDay ∧
      ∀ rule ∈ g.rules, g.Offers rule whole o m ∨ g.Offers rule whole o' m' → g.Adds rule days

theorem ahead_of_alike {o' : Options} {m' : Match} (alike : Match.Alike (Biased o.reference) m m') :
    g.Ahead text o o' m m' := by
  obtain ⟨(certain : m.certain = m'.certain), later⟩ := alike.stated
  refine ⟨alike.index, alike.text, certain, fun either => ?_⟩
  obtain ⟨(time : m.start.time = m'.start.time), days, later, bias⟩ := later either
  refine ⟨days, ?_, fun rule listed offered => ?_⟩
  · rw [Instant.since_of_time time]
    congr 1
    dsimp only at later
    omega
  · rcases offered with offered | offered
    · exact adds_of_isBias listed offered bias
    · exact adds_of_isBias listed offered (certain ▸ bias)

/-- Two weeks inside the calendar a reading into the future and a plain one, be it under another
first day of the week, find the same matches: with forward bias a weekday starts on the same day or
a week later, a bare time on the same day or a day later, and all else starts alike. In a leap second
only weekdays may be off. -/
theorem read_ahead (t : Table) (language text : String) (now : Instant) (w w' : Weekday)
    (inside : now.date.Inside 14) :
    let g := ofTable t language
    let o : Options := ⟨now, true, w⟩
    let o' : Options := .plain now w'
    ∃ found found', g.grammar.read text o = .ok found ∧ g.grammar.read text o' = .ok found' ∧
      (∀ m ∈ found, ∃ rule ∈ g.rules, g.Offers rule text.toList o m) ∧
      List.Forall₂ (g.Ahead text.toList o o') found found' := by
  intro g o o'
  have room : o.HasRoom := Options.hasRoom_forward w inside
  have couples : ∀ rule ∈ g.rules, Rule.Couples rule o o' (Biased now) := fun _ listed =>
    couples_biased room listed
  obtain ⟨found, found', read, read', pairs⟩ := forall₂_matches? couples text.toList
  refine ⟨found, found', read_eq_ok read, read_eq_ok read', fun m hm => ?_,
    pairs.imp fun m m' => ahead_of_alike⟩
  rw [matches?_eq_keptSpans fun rule listed => staysOver_of_stays (stays_of_mem_rules room listed)]
    at read
  obtain rfl := Except.ok.inj read
  exact exists_offers_of_mem hm

/-- On a Friday, Monday is three days away with forward bias, and was four days ago without. -/
theorem read_ahead_monday :
    let t := Table.empty.insert "en" "monday" "monday"
    let g := ofTable t "en"
    let ten : TimeOfDay := ⟨10 * nanosPerHour, by decide, false⟩
    let friday : Instant := ⟨⟨20742, by decide, by decide⟩, ten⟩
    let o : Options := ⟨friday, true, .sunday⟩
    let o' : Options := .plain friday .monday
    let next : Match := ⟨0, "Monday", ⟨⟨20745, by decide, by decide⟩, ten⟩, .ofList [.weekday]⟩
    let last : Match := ⟨0, "Monday", ⟨⟨20738, by decide, by decide⟩, ten⟩, .ofList [.weekday]⟩
    friday.date.Inside 14 ∧ g.grammar.read "Monday" o = .ok [next] ∧
      g.grammar.read "Monday" o' = .ok [last] ∧ g.Ahead "Monday".toList o o' next last := by
  intro t g ten friday o o' next last
  have inside : friday.date.Inside 14 := by decide
  have read : g.grammar.read "Monday" o = .ok [next] := by decide +kernel
  have read' : g.grammar.read "Monday" o' = .ok [last] := by decide +kernel
  obtain ⟨found, found', first, second, -, pairs⟩ :=
    read_ahead t "en" "Monday" friday .sunday .monday inside
  obtain rfl : [next] = found := Except.ok.inj (read.symm.trans first)
  obtain rfl : [last] = found' := Except.ok.inj (read'.symm.trans second)
  obtain ⟨ahead, -⟩ := List.forall₂_cons.1 pairs
  exact ⟨inside, read, read', ahead⟩

/-- From half past ten on a Friday, in a leap second, a plain reading puts Saturday a second before
the one into the future, since only the latter keeps the leap second. -/
theorem not_ahead_of_leap_second :
    ¬ ∀ (t : Table) (language text : String) (now : Instant) (w w' : Weekday)
        (found found' : List Match), now.date.Inside 14 →
      (ofTable t language).grammar.read text ⟨now, true, w⟩ = .ok found →
      (ofTable t language).grammar.read text (.plain now w') = .ok found' →
      List.Forall₂ (fun m m' => ∃ days : Int, m.start.since m'.start = days * nanosPerDay)
        found found' := by
  intro ahead
  let time : TimeOfDay := ⟨630 * nanosPerMinute + 59500000000, by decide, true⟩
  let friday : Instant := ⟨⟨20742, by decide, by decide⟩, time⟩
  let saturday : Date := ⟨20743, by decide, by decide⟩
  have pairs := ahead (Table.empty.insert "en" "saturday" "saturday") "en" "saturday" friday
    .sunday .sunday [⟨0, "saturday", ⟨saturday, time⟩, .ofList [.weekday]⟩]
    [⟨0, "saturday", ⟨saturday, ⟨time.nanos, time.nanos_lt, false⟩⟩, .ofList [.weekday]⟩]
    (by decide) (by decide +kernel) (by decide +kernel)
  obtain ⟨⟨days, apart⟩, -⟩ := List.forall₂_cons.1 pairs
  have second : (⟨saturday, time⟩ : Instant).since ⟨saturday, ⟨time.nanos, time.nanos_lt, false⟩⟩ =
      1000000000 := by decide
  have day : (nanosPerDay : Int) = 86400000000000 := by decide
  rw [second, day] at apart
  omega

end Coupled

section Past

theorem start_lt_iff (forward : o.forward) {s : Stated} (named : IsWeekday o s) :
    s.instant < o.reference ↔ s.certain.statesTime ∧ s.instant.date = o.reference.date ∧
      s.instant.time < o.reference.time := by
  obtain ⟨first, -⟩ := named.soon forward
  rw [Instant.lt_iff, Date.lt_iff]
  constructor
  · rintro (before | ⟨today, past⟩)
    · omega
    · refine ⟨?_, today, past⟩
      by_contra untimed
      rw [named.untimed forward (by simpa using untimed)] at past
      exact Nat.lt_irrefl _ past
  · rintro ⟨-, today, past⟩
    exact .inr ⟨today, past⟩

/-- Read into the future, no bare time is past, and a weekday is one of the seven days from today
on; it is past exactly if it is today, with a time of its own that is past. -/
theorem read_forward (t : Table) (language text : String) (now : Instant) (weekStart : Weekday)
    (inside : now.date.Inside 14) :
    let g := ofTable t language
    let o : Options := ⟨now, true, weekStart⟩
    ∃ found, g.grammar.read text o = .ok found ∧ ∀ m ∈ found,
      (g.Offers g.timeRule text.toList o m → now ≤ m.start) ∧
      (g.Offers g.weekdayRule text.toList o m →
        now.date ≤ m.start.date ∧ m.start.date.number ≤ now.date.number + 6 ∧
        (m.start < now ↔ m.certain.statesTime ∧ m.start.date = now.date ∧
          m.start.time < now.time)) := by
  intro g o
  obtain ⟨found, read⟩ := exists_read (g := g) (Options.hasRoom_forward weekStart inside) text
  refine ⟨found, read, fun m _ => ⟨fun offered => ?_, fun offered => ?_⟩⟩
  · exact (offered.of_says says_isBareTime).ahead rfl
  · have named : IsWeekday o ⟨m.start, m.certain⟩ := offered.of_says says_isWeekday
    obtain ⟨first, last⟩ := named.soon rfl
    exact ⟨first, last, start_lt_iff rfl named⟩

/-- On a Friday at ten, nine o'clock is on Saturday. -/
theorem read_forward_saturday :
    let g := ofTable (Table.empty.insert "en" "friday" "friday") "en"
    let friday : Instant := ⟨⟨20742, by decide, by decide⟩, ⟨10 * nanosPerHour, by decide, false⟩⟩
    let o : Options := ⟨friday, true, .sunday⟩
    let saturday : Instant := ⟨⟨20743, by decide, by decide⟩, ⟨9 * nanosPerHour, by decide, false⟩⟩
    friday.date.Inside 14 ∧ g.grammar.read "9am" o = .ok [⟨0, "9am", saturday, .clock⟩] ∧
      g.Offers g.timeRule "9am".toList o ⟨0, "9am", saturday, .clock⟩ ∧ friday ≤ saturday := by
  intro g friday o saturday
  have inside : friday.date.Inside 14 := by decide
  have read : g.grammar.read "9am" o = .ok [⟨0, "9am", saturday, .clock⟩] := by decide +kernel
  have offered : g.Offers g.timeRule "9am".toList o ⟨0, "9am", saturday, .clock⟩ :=
    offers_iff.2 ⟨⟨0, "9am".toList, saturday, .clock⟩, by decide +kernel, by decide +kernel⟩
  obtain ⟨found, same, starts⟩ :=
    read_forward (Table.empty.insert "en" "friday" "friday") "en" "9am" friday .sunday inside
  obtain rfl := Except.ok.inj (read.symm.trans same)
  exact ⟨inside, read, offered, (starts _ (List.mem_singleton_self _)).1 offered⟩

/-- On a Friday at ten, Friday at nine is an hour ago also with forward bias. -/
theorem not_ahead_of_read_forward :
    ¬ ∀ (t : Table) (language text : String) (now : Instant) (weekStart : Weekday)
        (found : List Match),
      let g := ofTable t language
      let o : Options := ⟨now, true, weekStart⟩
      now.date.Inside 14 → g.grammar.read text o = .ok found → ∀ m ∈ found,
        g.Offers g.weekdayRule text.toList o m ∨ g.Offers g.timeRule text.toList o m →
          now ≤ m.start := by
  intro ahead
  let t := Table.empty.insert "en" "friday" "friday"
  let g := ofTable t "en"
  let friday : Instant := ⟨⟨20742, by decide, by decide⟩, ⟨10 * nanosPerHour, by decide, false⟩⟩
  let o : Options := ⟨friday, true, .sunday⟩
  let nine : Instant := ⟨friday.date, ⟨9 * nanosPerHour, by decide, false⟩⟩
  let span : Span Stated :=
    ⟨0, "friday 9am".toList, nine, (Certainty.ofList [.weekday]).withClock⟩
  have stays : ∀ rule ∈ g.rules, g.StaysOver "friday 9am".toList o rule := fun rule listed =>
    staysOver_of_stays (stays_of_mem_rules (Options.hasRoom_forward .sunday (by decide)) listed)
  have named : g.statedSpans "friday 9am".toList o g.weekdayRule = [span] := by decide +kernel
  have stated : g.rules.flatMap (g.statedSpans "friday 9am".toList o) =
      [span, ⟨7, "9am".toList, ⟨⟨20743, by decide, by decide⟩, nine.time⟩, .clock⟩] := by
    decide +kernel
  have kept : g.keptSpans "friday 9am".toList o = [span] := by
    rw [keptSpans, stated]
    simp [span, select, List.mergeSort, leads, selectFrom, Span.stop]
  have past := ahead t "en" "friday 9am" friday .sunday _ (by decide)
    (read_eq_ok (matches?_eq_keptSpans stays)) (toMatch "friday 9am".toList span)
    (by rw [kept]; exact List.mem_singleton_self _)
    (.inl (offers_iff.2 ⟨span, by rw [named]; exact List.mem_singleton_self _, rfl⟩))
  exact absurd past (by decide)

end Past

end Casual

end DatePhrase
