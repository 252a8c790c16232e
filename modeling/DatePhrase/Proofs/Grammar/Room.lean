import DatePhrase.Grammar.English
import DatePhrase.Proofs.Calendar.Moves
import DatePhrase.Proofs.Text.Cuts

/-! Grammars that stay in the calendar. A reading may move one day either way, to any day of the
week around its reference and, with forward bias, up to six days ahead; where the calendar has room
for that, no rule of the casual grammar leaves it, whatever the text and the words. Main statement:
the grammar of a language then never leaves the calendar, whatever the reader of phrases does. -/
namespace DatePhrase
open Text Calendar

/-- The calendar has every day that a reading may move to. -/
structure Options.HasRoom (o : Options) : Prop where
  before : firstDay < o.reference.date.sunday
  behind : o.reference.date.sunday + 7 ≤ lastDay
  ahead : o.forward → o.reference.date.number + 6 ≤ lastDay

theorem exists_mapM {ε α β : Type} {f : α → Except ε β} {inputs : List α}
    (h : ∀ a ∈ inputs, ∃ b, f a = .ok b) : ∃ results, inputs.mapM f = .ok results := by
  induction inputs with
  | nil => exact ⟨[], rfl⟩
  | cons a inputs ih =>
    obtain ⟨b, first⟩ := h a (by simp)
    obtain ⟨results, others⟩ := ih fun c hc => h c (by simp [hc])
    rw [List.mapM_cons, first, others]
    exact ⟨b :: results, rfl⟩

theorem exists_filterMapM {ε α β : Type} {f : α → Except ε (Option β)} {inputs : List α}
    (h : ∀ a ∈ inputs, ∃ b, f a = .ok b) : ∃ results, inputs.filterMapM f = .ok results := by
  induction inputs with
  | nil => exact ⟨[], rfl⟩
  | cons a inputs ih =>
    obtain ⟨b, first⟩ := h a (by simp)
    obtain ⟨results, others⟩ := ih fun c hc => h c (by simp [hc])
    rw [List.filterMapM_cons, first, others]
    cases b <;> exact ⟨_, rfl⟩

namespace Options
variable {o : Options}

theorem HasRoom.exists_move (room : o.HasRoom) {n : Int} (lower : -1 ≤ n) (upper : n ≤ 1) :
    ∃ i, o.reference.move n = .ok i := by
  have early := o.reference.date.number_le
  have late := o.reference.date.sunday_le
  have before := room.before
  have behind := room.behind
  apply Instant.exists_move <;> omega

theorem HasRoom.exists_setWeekday (room : o.HasRoom) (w : Weekday) :
    ∃ i, o.reference.setWeekday w = .ok i := by
  have within := w.index_le
  have before := room.before
  have behind := room.behind
  apply Instant.exists_setWeekday <;> omega

section Inside
variable {now : Instant}

theorem hasRoom_plain (weekStart : Weekday) (inside : now.date.Inside 14) :
    (plain now weekStart).HasRoom := by
  obtain ⟨lower, upper⟩ := inside
  have early := now.date.number_le
  have late := now.date.sunday_le
  refine ⟨?_, ?_, nofun⟩ <;> simp only [plain] <;> omega

theorem hasRoom_forward (weekStart : Weekday) (inside : now.date.Inside 14) :
    HasRoom ⟨now, true, weekStart⟩ := by
  obtain ⟨before, behind, -⟩ := hasRoom_plain weekStart inside
  obtain ⟨lower, upper⟩ := inside
  exact ⟨before, behind, fun _ => by simp only; omega⟩

theorem hasRoom_of_inside (inside : now.date.Inside 14) (forward : Bool) (weekStart : Weekday) :
    HasRoom ⟨now, forward, weekStart⟩ := by
  cases forward with
  | false => exact hasRoom_plain weekStart inside
  | true => exact hasRoom_forward weekStart inside

end Inside

end Options

namespace Casual
variable {g : Casual} {o : Options}

theorem exists_dayWordMeaning (room : o.HasRoom) (word : List Char) (time : Option (List Char)) :
    ∃ s, g.dayWordMeaning word time o = .ok s := by
  unfold dayWordMeaning
  split
  · exact ⟨none, rfl⟩
  · rename_i meaning _
    cases meaning with
    | now | today => exact ⟨_, rfl⟩
    | tomorrow =>
      obtain ⟨i, hi⟩ := room.exists_move (n := 1) (by decide) (by decide)
      exact ⟨_, by rw [hi]; rfl⟩
    | yesterday =>
      obtain ⟨i, hi⟩ := room.exists_move (n := -1) (by decide) (by decide)
      exact ⟨_, by rw [hi]; rfl⟩

/-- Which day a weekday is depends on the bias, what is stated about it does not. -/
theorem exists_weekdayMeaning_eq (room : o.HasRoom) (word : List Char) (time : Option (List Char)) :
    ∃ i, g.weekdayMeaning word time o = .ok ((g.days.lookup (asListed word)).bind fun _ =>
      g.atTime ⟨i, .ofList [.weekday]⟩ time) := by
  unfold weekdayMeaning
  cases g.days.lookup (asListed word) with
  | none => exact ⟨o.reference, rfl⟩
  | some day =>
    by_cases forward : o.forward
    · obtain ⟨d, hd⟩ := Date.exists_onOrAfter (w := day) (room.ahead forward)
      exact ⟨⟨d, o.reference.time⟩, by simp only [if_pos forward, hd]; rfl⟩
    · obtain ⟨i, hi⟩ := room.exists_setWeekday day
      exact ⟨i, by simp only [if_neg forward, hi]; rfl⟩

/-- Which day a bare time is on depends on the bias. -/
theorem exists_timeMeaning_eq (room : o.HasRoom) (text : List Char) :
    ∃ i, g.timeMeaning text o = .ok ((g.clockTime? text).map fun _ => ⟨i, .clock⟩) := by
  unfold timeMeaning
  cases g.clockTime? text with
  | none => exact ⟨o.reference, rfl⟩
  | some time =>
    dsimp only
    split
    · rename_i late
      have forward : o.forward := by simp_all
      have ahead := room.ahead forward
      have first_le := o.reference.date.first_le
      obtain ⟨i, hi⟩ := Instant.exists_move (t := ⟨o.reference.date, time⟩) (n := 1)
        (by simp only; omega) (by simp only; omega)
      exact ⟨i, by rw [hi]; rfl⟩
    · exact ⟨⟨o.reference.date, time⟩, rfl⟩

/-- Whatever the rule makes of a span has the property. -/
def Rule.Means (rule : Rule) (P : Meaning → Prop) : Prop :=
  ∀ s meaning rest, (meaning, rest) ∈ rule s → P meaning

theorem Rule.Means.pure {P : Meaning → Prop} {m : Meaning} (h : P m) : Rule.Means (pure m) P := by
  intro s meaning rest found
  obtain ⟨rfl, -⟩ := Cut.mem_pure.1 found
  exact h

protected theorem Rule.Means.bind {α : Type} {P : Meaning → Prop} {c : Cut α} {f : α → Rule}
    (h : ∀ a, (f a).Means P) : Rule.Means (c >>= f) P := by
  intro s meaning rest found
  obtain ⟨a, mid, -, later⟩ := Cut.mem_bind.1 found
  exact h a mid meaning rest later

section Means
variable {P : Meaning → Prop}

theorem means_isoRule (h : ∀ year month day, P (isoMeaning year month day)) :
    Rule.Means isoRule P :=
  .bind fun year => .bind fun _ => .bind fun month => .bind fun _ => .bind fun day =>
    .pure (h year month day)

theorem means_dayWordRule (h : ∀ word time, P (g.dayWordMeaning word time)) :
    g.dayWordRule.Means P :=
  Rule.Means.bind fun word => .bind fun time => .pure (h word time)

theorem means_weekdayRule (h : ∀ word time, P (g.weekdayMeaning word time)) :
    g.weekdayRule.Means P :=
  Rule.Means.bind fun word => .bind fun time => .pure (h word time)

theorem means_offsetRule (h : ∀ amount unit time, P (g.offsetMeaning amount unit time)) :
    g.offsetRule.Means P :=
  Rule.Means.bind fun _ => .bind fun _ => .bind fun amount => .bind fun _ => .bind fun unit =>
    .bind fun time => .pure (h amount unit time)

theorem means_periodRule (h : ∀ unit, P (g.periodMeaning unit)) : g.periodRule.Means P :=
  Rule.Means.bind fun _ => .bind fun _ => .bind fun unit => .pure (h unit)

theorem means_ordinalRule (h : ∀ day, P (ordinalMeaning day)) : g.ordinalRule.Means P :=
  Rule.Means.bind fun day => .bind fun _ => .pure (h day)

theorem means_timeRule (h : ∀ text, P (g.timeMeaning text)) : g.timeRule.Means P :=
  Rule.Means.bind fun taken => .pure (h taken.1)

/-- What holds of each kind of meaning holds of all that the rules make of spans. -/
theorem means_of_mem_rules
    (iso : ∀ year month day, P (isoMeaning year month day))
    (dayWord : ∀ word time, P (g.dayWordMeaning word time))
    (weekday : ∀ word time, P (g.weekdayMeaning word time))
    (offset : ∀ amount unit time, P (g.offsetMeaning amount unit time))
    (period : ∀ unit, P (g.periodMeaning unit))
    (ordinal : ∀ day, P (ordinalMeaning day))
    (clock : ∀ text, P (g.timeMeaning text)) {rule : Rule} (listed : rule ∈ g.rules) :
    rule.Means P := by
  simp only [rules, List.mem_cons, List.not_mem_nil, or_false] at listed
  rcases listed with rfl | rfl | rfl | rfl | rfl | rfl | rfl
  · exact means_isoRule iso
  · exact means_dayWordRule dayWord
  · exact means_weekdayRule weekday
  · exact means_offsetRule offset
  · exact means_periodRule period
  · exact means_ordinalRule ordinal
  · exact means_timeRule clock

end Means

/-- What the rule makes of a span never leaves the calendar. -/
def Rule.Stays (rule : Rule) (o : Options) : Prop :=
  ∀ s meaning rest, (meaning, rest) ∈ rule s → ∃ x, meaning o = .ok x

theorem stays_isoRule : Rule.Stays isoRule o :=
  means_isoRule (P := fun m => ∃ x, m o = .ok x) fun _ _ _ => ⟨_, rfl⟩

theorem stays_offsetRule (g : Casual) : g.offsetRule.Stays o :=
  means_offsetRule (P := fun m => ∃ x, m o = .ok x) fun _ _ _ => ⟨_, rfl⟩

theorem stays_periodRule (g : Casual) : g.periodRule.Stays o :=
  means_periodRule (P := fun m => ∃ x, m o = .ok x) fun _ => ⟨_, rfl⟩

theorem stays_ordinalRule (g : Casual) : g.ordinalRule.Stays o :=
  means_ordinalRule (P := fun m => ∃ x, m o = .ok x) fun _ => ⟨_, rfl⟩

theorem stays_of_mem_rules (room : o.HasRoom) {rule : Rule} (h : rule ∈ g.rules) :
    rule.Stays o := by
  refine means_of_mem_rules (P := fun m => ∃ x, m o = .ok x) ?_ ?_ ?_ ?_ ?_ ?_ ?_ h
  · exact fun _ _ _ => ⟨_, rfl⟩
  · exact exists_dayWordMeaning room
  · intro word time
    obtain ⟨i, meant⟩ := exists_weekdayMeaning_eq (g := g) room word time
    exact ⟨_, meant⟩
  · exact fun _ _ _ => ⟨_, rfl⟩
  · exact fun _ => ⟨_, rfl⟩
  · exact fun _ => ⟨_, rfl⟩
  · intro text
    obtain ⟨i, meant⟩ := exists_timeMeaning_eq (g := g) room text
    exact ⟨_, meant⟩

theorem exists_candidatesOf {rule : Rule} (stays : rule.Stays o) (text : List Char) :
    ∃ spans, g.candidatesOf text o rule = .ok spans := by
  apply exists_filterMapM
  intro span found
  obtain ⟨s, rest, read⟩ := Cut.mem_scan (List.mem_filter.1 found).1
  obtain ⟨stated, h⟩ := stays s span.value rest read
  exact ⟨_, by rw [h]; rfl⟩

theorem exists_matches? (room : o.HasRoom) (text : List Char) :
    ∃ found, g.matches? text o = .ok found := by
  obtain ⟨spans, h⟩ := exists_mapM fun rule (hrule : rule ∈ g.rules) =>
    exists_candidatesOf (g := g) (stays_of_mem_rules room hrule) text
  exact ⟨_, by simp only [matches?, candidates, h]; rfl⟩

theorem exists_read (room : o.HasRoom) (text : String) :
    ∃ found, g.grammar.read text o = .ok found := by
  obtain ⟨found, h⟩ := exists_matches? (g := g) room text.toList
  exact ⟨found, by simp only [grammar, h]; rfl⟩

end Casual

namespace English

/-- A breakdown of the reader of phrases is no matter of dates. -/
theorem wholePhrase_ne (reader : PhraseReader) (text : String) (o : Options) :
    wholePhrase reader text o ≠ .error .outOfCalendar := by
  unfold wholePhrase
  dsimp only
  split
  · exact nofun
  · split <;> exact nofun

theorem read_ne {reader : PhraseReader} {casual : Casual} {o : Options} (room : o.HasRoom)
    (text : String) : (grammar reader casual).read text o ≠ .error .outOfCalendar := by
  obtain ⟨found, h⟩ := Casual.exists_read (g := casual) room text
  have whole := wholePhrase_ne reader text o
  simp only [grammar, h, bind, Except.bind]
  split
  · exact nofun
  · cases reading : wholePhrase reader text o with
    | error e => simpa [reading] using whole
    | ok phrase => cases phrase <;> exact nofun

end English

theorem Grammar.read_ne_of_ofLanguage? {reader : PhraseReader} {t : Table} {language : String}
    {g : Grammar} (made : Grammar.ofLanguage? reader t language = some g) {o : Options}
    (room : o.HasRoom) (text : String) : g.read text o ≠ .error .outOfCalendar := by
  unfold ofLanguage? at made
  split at made
  · obtain rfl := Option.some.inj made
    split
    · exact English.read_ne room text
    · obtain ⟨found, h⟩ := Casual.exists_read (g := Casual.ofTable t language) room text
      rw [h]
      exact nofun
  · cases made

end DatePhrase
