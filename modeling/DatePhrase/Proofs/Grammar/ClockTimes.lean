import DatePhrase.Proofs.Grammar.DayWordsAndOffsets
import DatePhrase.Proofs.Text.Letters

/-! Clock times as a text of their own: an hour and minutes around a colon, or an hour on the dial
with minutes if any and a half of the day. Main statement: the casual grammar of each language at
hand reads such a text as one match, the time that it writes on the day of the reference. -/
namespace DatePhrase
open Text Calendar

namespace Calendar.TimeOfDay

/-- The time has this hour and minute and is on the minute. -/
def Shows (time : TimeOfDay) (hour minute : Nat) : Prop :=
  time.nanos = hour * nanosPerHour + minute * nanosPerMinute ∧ time.leap = false

theorem ofClock?_of_shows {time : TimeOfDay} {hour minute : Nat} (before : minute < 60)
    (shows : time.Shows hour minute) : ofClock? hour minute 0 0 = some time := by
  have day := time.nanos_lt
  obtain ⟨shows, regular⟩ := shows
  have hour_lt : hour < 24 := by
    simp only [nanosPerDay, nanosPerHour, nanosPerMinute, nanosPerSecond] at day shows
    omega
  have total : hour * nanosPerHour + minute * nanosPerMinute + 0 * nanosPerSecond + 0 =
      time.nanos := by omega
  have second : 0 < nanosPerSecond := by decide
  rw [ofClock?, if_pos ⟨hour_lt, before, by decide, second⟩, total, ofNanos?, dif_pos day]
  exact congrArg some (TimeOfDay.ext rfl regular.symm)

theorem ofClock?_eq_some_iff {time : TimeOfDay} {hour minute : Nat} :
    ofClock? hour minute 0 0 = some time ↔ hour < 24 ∧ minute < 60 ∧ time.Shows hour minute := by
  constructor
  · intro read
    rw [ofClock?] at read
    split at read
    · rename_i range
      rw [ofNanos?] at read
      split at read
      · obtain rfl := Option.some.inj read
        exact ⟨range.1, range.2.1, by simp [Shows]⟩
      · cases read
    · cases read
  · rintro ⟨-, before, shows⟩
    exact ofClock?_of_shows before shows

theorem exists_shows {hour minute : Nat} (hour_lt : hour < 24) (minute_lt : minute < 60) :
    ∃ time : TimeOfDay, time.Shows hour minute := by
  refine ⟨⟨hour * nanosPerHour + minute * nanosPerMinute, ?_, false⟩, rfl, rfl⟩
  simp only [nanosPerDay, nanosPerHour, nanosPerMinute, nanosPerSecond]
  omega

end Calendar.TimeOfDay

namespace Casual
open Cut

/-- What stands between the hour on a dial and the half of the day: nothing, or a colon or a point
and two digits for the minutes. -/
inductive WritesMinutes : List Char → Option (List Char) → Nat → Prop
  | sharp : WritesMinutes [] none 0
  | past {mark : Char} {digits : List Char} {m : Nat} (marked : mark = ':' ∨ mark = '.')
      (writes : Writes digits m) (places : digits.length = 2) (before : m < 60) :
      WritesMinutes (mark :: digits) (some digits) m

/-- Half a day later in the afternoon. -/
def halfDay (half : String) : Nat := if half = "pm" ∨ half = "p.m." then 12 else 0

/-- The text writes an hour of the day and a minute. -/
inductive WritesTime : List Char → Nat → Nat → Prop
  | colon {hour minute : List Char} {h m : Nat} (writes : Writes hour h) (short : hour.length ≤ 2)
      (day : h < 24) (writes' : Writes minute m) (places : minute.length = 2) (before : m < 60) :
      WritesTime (hour ++ ':' :: minute) h m
  | dial {hour minutes blanks : List Char} {digits : Option (List Char)} {half : String} {h m : Nat}
      (writes : Writes hour h) (short : hour.length ≤ 2) (positive : 1 ≤ h) (twelve : h ≤ 12)
      (past : WritesMinutes minutes digits m) (line : ∀ c ∈ blanks, isBlank c ∧ c ≠ '\n')
      (listed : half ∈ meridiems) :
      WritesTime (hour ++ (minutes ++ (blanks ++ half.toList))) (h % 12 + halfDay half) m

/-- The characters that clock times are written with besides digits and blanks. -/
def clockMarks : List Char := [':', '.', 'a', 'p', 'm']

theorem letters_of_mem_meridiems : ∀ half ∈ meridiems,
    (half.toList ≠ [] ∧ Stops isBlank half.toList ∧ Stops isDigit half.toList ∧
      Tight half.toList ∧ Stops (fun c => c = ':' || c = '.') half.toList) ∧
    (∀ c ∈ half.toList, c ∈ clockMarks) ∧ 'm' ∈ half.toList ∧
    ('a' ∈ half.toList ∨ 'p' ∈ half.toList) := by
  decide +kernel

theorem folded_of_mem_clockMarks : ∀ c ∈ clockMarks, Folded c := by decide +kernel

variable {t minutes hour blanks : List Char} {digits : Option (List Char)} {half : String}
variable {h m : Nat}

theorem WritesMinutes.chars (past : WritesMinutes minutes digits m) :
    ∀ c ∈ minutes, IsPlainDigit c ∨ c ∈ clockMarks := by
  cases past with
  | sharp => exact nofun
  | past marked writes =>
    intro c hc
    rcases List.mem_cons.1 hc with rfl | hc
    · rcases marked with rfl | rfl <;> exact .inr (by decide)
    · exact .inl (writes.2.1 c hc)

theorem WritesTime.chars (clock : WritesTime t h m) :
    ∀ c ∈ t, IsPlainDigit c ∨ (isBlank c ∧ c ≠ '\n') ∨ c ∈ clockMarks := by
  intro c hc
  cases clock with
  | colon writes _ _ writes' =>
    rcases List.mem_append.1 hc with hc | hc
    · exact .inl (writes.2.1 c hc)
    · rcases List.mem_cons.1 hc with rfl | hc
      · exact .inr (.inr (by decide))
      · exact .inl (writes'.2.1 c hc)
  | dial writes _ _ _ past line listed =>
    rcases List.mem_append.1 hc with hc | hc
    · exact .inl (writes.2.1 c hc)
    · rcases List.mem_append.1 hc with hc | hc
      · exact (past.chars c hc).imp_right .inr
      · rcases List.mem_append.1 hc with hc | hc
        · exact .inr (.inl (line c hc))
        · exact .inr (.inr ((letters_of_mem_meridiems _ listed).2.1 c hc))

theorem WritesTime.folded (clock : WritesTime t h m) : AllFolded t := by
  intro c hc
  rcases clock.chars c hc with plain | ⟨blank, -⟩ | mark
  · exact folded_of_plainDigit plain
  · exact folded_of_isBlank blank
  · exact folded_of_mem_clockMarks c mark

theorem WritesTime.begins (clock : WritesTime t h m) : ∃ d more, t = d :: more ∧ isDigit d := by
  have first : ∀ {digits rest : List Char} {n : Nat}, Writes digits n →
      ∃ d more, digits ++ rest = d :: more ∧ isDigit d := by
    rintro digits rest n writes
    obtain ⟨d, more, rfl⟩ := List.exists_cons_of_ne_nil writes.1
    exact ⟨d, more ++ rest, rfl, isDigit_of_plain (writes.2.1 d (by simp))⟩
  cases clock with
  | colon writes => exact first writes
  | dial writes => exact first writes

theorem WritesTime.tight (clock : WritesTime t h m) : Tight t := by
  cases clock with
  | colon _ _ _ writes' =>
    rw [← List.singleton_append, ← List.append_assoc, tight_append writes'.1]
    intro c hc
    exact isBlank_of_isDigit (isDigit_of_plain (writes'.2.1 c (List.mem_of_mem_getLast? hc)))
  | dial _ _ _ _ _ _ listed =>
    obtain ⟨⟨nonempty, -, -, tight, -⟩, -⟩ := letters_of_mem_meridiems _ listed
    rwa [tight_append (by simp [nonempty]), tight_append (by simp [nonempty]),
      tight_append nonempty]

/-- One character at least tells a clock time from a number with an ending. -/
theorem WritesTime.exists_mark (clock : WritesTime t h m) : ∃ c ∈ t, c ∈ [':', 'a', 'p'] := by
  cases clock with
  | colon => exact ⟨':', by simp, by simp⟩
  | dial _ _ _ _ _ _ listed =>
    obtain ⟨-, -, -, letter | letter⟩ := letters_of_mem_meridiems _ listed
    · exact ⟨'a', by simp [letter], by simp⟩
    · exact ⟨'p', by simp [letter], by simp⟩

section Reading
variable (g : Casual)

theorem mem_of_mem_cutDial {c : ClockText} {rest : List Char} (folded : AllFolded t)
    (way : (c, rest) ∈ cutDial t) : 'm' ∈ t := by
  obtain ⟨_, s₁, first, way⟩ := mem_bind.1 way
  obtain ⟨_, s₂, second, way⟩ := mem_bind.1 way
  obtain ⟨_, s₃, third, way⟩ := mem_bind.1 way
  obtain ⟨part, s₄, fourth, -⟩ := mem_bind.1 way
  obtain ⟨rfl, spelled⟩ := mem_oneOf_iff.1 fourth
  have behind : part ++ s₄ <:+ t :=
    (forward_many _ _ _ _ third).trans <| (Forward.optional (.bind (forward_char _) fun _ =>
      forward_exactly _ _) _ _ _ second).trans (forward_oneTo _ _ _ _ _ first)
  have letters : ∀ w ∈ meridiems, AllFolded w.toList := fun w hw c hc =>
    folded_of_mem_clockMarks c ((letters_of_mem_meridiems w hw).2.1 c hc)
  obtain ⟨half, listed, rfl⟩ := exists_of_spells_folded letters
    (fun c hc => folded c (behind.subset (by simp [hc]))) spelled
  exact behind.subset (by simp [(letters_of_mem_meridiems half listed).2.2.1])

theorem prefers_cutDial (writes : Writes hour h) (short : hour.length ≤ 2)
    (past : WritesMinutes minutes digits m) (blank : ∀ c ∈ blanks, isBlank c)
    (listed : half ∈ meridiems) :
    cutDial.Prefers (hour ++ (minutes ++ (blanks ++ half.toList)))
      ⟨hour, digits, some half.toList⟩ [] := by
  obtain ⟨⟨nonempty, solid, undigited, -, unmarked⟩, -⟩ := letters_of_mem_meridiems half listed
  have number : (oneTo 2 isDigit).Prefers (hour ++ (minutes ++ (blanks ++ half.toList))) hour
      (minutes ++ (blanks ++ half.toList)) := by
    refine prefers_oneTo writes.1 (fun c hc => isDigit_of_plain (writes.2.1 c hc)) short (.inr ?_)
    cases past with
    | sharp =>
      rw [List.nil_append]
      exact stops_of_clear (fun c hc => isDigit_of_isBlank (blank c hc)) undigited
    | past marked => rcases marked with rfl | rfl <;> exact stops_cons.2 (by decide)
  have minute : (Cut.optional do
      let _ ← Cut.char fun c => c = ':' || c = '.'
      Cut.exactly isDigit 2).Prefers (minutes ++ (blanks ++ half.toList)) digits
        (blanks ++ half.toList) := by
    cases past with
    | sharp =>
      have clear : ∀ c ∈ blanks, (c = ':' || c = '.') = false := by
        intro c hc
        simp only [Bool.or_eq_false_iff, decide_eq_false_iff_not]
        constructor <;> rintro rfl <;> exact absurd (blank _ hc) (by decide)
      rw [List.nil_append]
      exact prefers_optional_none (char_bind_eq_nil (stops_of_clear clear unmarked))
    | past marked writes places =>
      refine .optional ((prefers_char (by simpa using marked)).bind ?_)
      rw [← places]
      exact prefers_exactly fun c hc => isDigit_of_plain (writes.2.1 c hc)
  exact number.bind <| minute.bind <| (prefers_many blank solid).bind <|
    (prefers_oneOf_whole (by decide) (Vocabulary.spells_of_mem listed)).bind prefers_pure

theorem prefers_cutColon {minute : List Char} (writes : Writes hour h) (short : hour.length ≤ 2)
    (writes' : Writes minute m) (places : minute.length = 2) :
    cutColon.Prefers (hour ++ ':' :: minute) ⟨hour, some minute, none⟩ [] := by
  have pair : (exactly isDigit 2).Prefers (minute ++ []) minute [] := by
    rw [← places]
    exact prefers_exactly fun c hc => isDigit_of_plain (writes'.2.1 c hc)
  rw [List.append_nil] at pair
  have number : (oneTo 2 isDigit).Prefers (hour ++ ':' :: minute) hour (':' :: minute) :=
    prefers_oneTo writes.1 (fun c hc => isDigit_of_plain (writes.2.1 c hc)) short
      (.inr (stops_cons.2 (by decide)))
  exact number.bind <| (prefers_char (by decide)).bind <| pair.bind prefers_pure

/-- Without a half of the day the text is no time on a dial. -/
theorem cutDial_colon {minute : List Char} (writes : Writes hour h) (writes' : Writes minute m) :
    cutDial (hour ++ ':' :: minute) = [] := by
  have plain : ∀ c ∈ hour ++ ':' :: minute, IsPlainDigit c ∨ c = ':' := by
    intro c hc
    rcases List.mem_append.1 hc with hc | hc
    · exact .inl (writes.2.1 c hc)
    · rcases List.mem_cons.1 hc with rfl | hc
      · exact .inr rfl
      · exact .inl (writes'.2.1 c hc)
  have folded : AllFolded (hour ++ ':' :: minute) := by
    intro c hc
    rcases plain c hc with digit | rfl
    · exact folded_of_plainDigit digit
    · decide +kernel
  rw [List.eq_nil_iff_forall_not_mem]
  intro way found
  rcases plain 'm' (mem_of_mem_cutDial folded found) with digit | colon
  · exact absurd digit (by decide)
  · exact absurd colon (by decide)

/-- The half of the day is told by its first letter, in any case. -/
theorem afternoon_of_spelled {part : List Char} (listed : half ∈ meridiems)
    (spelled : part.map fold = half.toList.map fold) :
    ['p'].isPrefixOf (lowerChars part) = decide (half = "pm" ∨ half = "p.m.") := by
  have letters : ∀ half ∈ meridiems, (half.toList.map fold).head? =
      some (if half = "pm" ∨ half = "p.m." then 'p' else 'a') := by decide +kernel
  have first := letters half listed
  rw [← spelled] at first
  obtain ⟨c, part, rfl⟩ : ∃ c more, part = c :: more := by
    cases part with
    | nil => cases first
    | cons c more => exact ⟨c, more, rfl⟩
  rw [List.map_cons, List.head?_cons, Option.some_inj] at first
  have small : c.toNat < 128 := by
    split at first
    · exact small_of_fold (n := 0x70) (by decide) (by decide) (by decide +kernel)
        (congrArg Char.toNat first)
    · exact small_of_fold (n := 0x61) (by decide) (by decide) (by decide +kernel)
        (congrArg Char.toNat first)
  rw [lowerChars, lowerFrom, lowerAt_of_small small, first, List.singleton_append]
  split <;> rename_i afternoon
  · rw [decide_eq_true afternoon]
    rfl
  · rw [decide_eq_false afternoon]
    rfl

theorem hourOfDay?_eq_some (positive : 1 ≤ h) (twelve : h ≤ 12) (listed : half ∈ meridiems)
    {part : List Char} (spelled : part.map fold = half.toList.map fold) :
    hourOfDay? (some part) h = some (h % 12 + halfDay half) := by
  have range : ¬ (h < 1 ∨ 12 < h) := by omega
  simp only [hourOfDay?, if_neg range, afternoon_of_spelled listed spelled, halfDay,
    decide_eq_true_eq]
  split_ifs with afternoon noon midnight
  · rw [noon]
  · rw [Nat.mod_eq_of_lt (by omega)]
  · rw [midnight]
  · rw [Nat.mod_eq_of_lt (by omega), Nat.add_zero]

theorem time?_eq_some {meridiem : Option (List Char)} {n : Nat} {time : TimeOfDay}
    (writes : Writes hour h) (past : WritesMinutes minutes digits m)
    (value : hourOfDay? meridiem h = some n) (shows : time.Shows n m) :
    (ClockText.mk hour digits meridiem).time? = some time := by
  cases past with
  | sharp =>
    simp only [ClockText.time?, readNat?_eq_some_iff.2 writes, value, Option.bind_eq_bind,
      Option.bind_some, TimeOfDay.ofClock?_of_shows (by decide) shows]
  | past _ writes' _ before =>
    simp only [ClockText.time?, readNat?_eq_some_iff.2 writes, readNat?_eq_some_iff.2 writes',
      value, Option.bind_eq_bind, Option.bind_some, TimeOfDay.ofClock?_of_shows before shows]

/-- The preferred way to read a clock time takes all of it and has the time that it writes. -/
theorem exists_clockText (clock : WritesTime t h m) {time : TimeOfDay} (shows : time.Shows h m) :
    ∃ c : ClockText, g.cutClock.Prefers t c [] ∧ c.time? = some time := by
  cases clock with
  | @colon hour minute _ _ writes short day writes' places before =>
    have past : WritesMinutes (':' :: minute) (some minute) m :=
      .past (.inl rfl) writes' places before
    exact ⟨⟨hour, some minute, none⟩, .or <| .or_second (cutDial_colon writes writes')
      (prefers_cutColon writes short writes' places), time?_eq_some writes past rfl shows⟩
  | @dial hour minutes blanks digits half _ _ writes short positive twelve past line listed =>
    exact ⟨⟨hour, digits, some half.toList⟩,
      .or (.or (prefers_cutDial writes short past (fun c hc => (line c hc).1) listed)),
      time?_eq_some writes past (hourOfDay?_eq_some positive twelve listed rfl) shows⟩

theorem clockTime?_eq_some (clock : WritesTime t h m) {time : TimeOfDay} (shows : time.Shows h m) :
    g.clockTime? t = some time := by
  obtain ⟨c, whole, value⟩ := g.exists_clockText clock shows
  have stops : Stops isBlank t := by
    obtain ⟨d, more, rfl, digit⟩ := clock.begins
    exact stops_cons.2 (isBlank_of_isDigit digit)
  rw [clockTime?, trimBlanks_eq_self stops clock.tight, whole.all?]
  exact value

end Reading

section Others
variable {g : Casual} {o : Options} {stated : Stated}

/-- A rule that begins with a word without digits does not read a clock time. -/
theorem not_mem_of_oneOf {α : Type} {words : List String} {f : List Char → Cut α}
    (clock : WritesTime t h m)
    (listed : ∀ w ∈ words, AllFolded w.toList ∧ w.toList ≠ [] ∧ ∀ c ∈ w.toList, isDigit c = false)
    (a : α) (rest : List Char) : (a, rest) ∉ (oneOf words >>= f) t := by
  intro way
  obtain ⟨w, known, mid, parts⟩ := exists_opening (fun w hw => (listed w hw).1) clock.folded way
  obtain ⟨-, nonempty, undigited⟩ := listed w known
  obtain ⟨d, more, begins, digit⟩ := clock.begins
  have stops : Stops isDigit t := by
    rw [← parts, stops_append nonempty]
    exact fun c hc => undigited c (List.mem_of_mem_head? hc)
  rw [begins, stops_cons, digit] at stops
  cases stops

theorem not_mem_isoRule (clock : WritesTime t h m) (meaning : Meaning) (rest : List Char) :
    (meaning, rest) ∉ isoRule t := by
  intro way
  obtain ⟨year, s₁, first, way⟩ := mem_bind.1 way
  obtain ⟨dash, s₂, second, -⟩ := mem_bind.1 way
  obtain ⟨mark, rfl⟩ := mem_char.1 second
  have inside : dash ∈ t := (forward_exactly _ _ _ _ _ first).subset (by simp)
  rw [of_decide_eq_true mark] at inside
  rcases clock.chars _ inside with plain | ⟨blank, -⟩ | listed
  · exact absurd plain (by decide)
  · exact absurd blank (by decide)
  · exact absurd listed (by decide)

/-- An ending of ordinals is no end of a clock time. -/
theorem not_mem_ordinalRule (clock : WritesTime t h m)
    (listed : ∀ w ∈ g.ordinalSuffix, AllFolded w.toList ∧ ∀ c ∈ w.toList, c ∉ [':', 'a', 'p'])
    (meaning : Meaning) : (meaning, []) ∉ g.ordinalRule t := by
  intro way
  obtain ⟨day, s₁, first, way⟩ := mem_bind.1 way
  obtain ⟨suffix, s₂, second, last⟩ := mem_bind.1 way
  obtain ⟨-, rfl⟩ := mem_pure.1 last
  obtain ⟨parts, -, -, all⟩ := mem_oneTo.1 first
  obtain ⟨ending, spelled⟩ := mem_oneOf_iff.1 second
  rw [List.append_nil] at ending
  subst ending
  obtain ⟨w, known, rfl⟩ := exists_of_spells_folded (fun w hw => (listed w hw).1)
    (fun c hc => clock.folded c (by simp [parts, hc])) spelled
  obtain ⟨c, inside, mark⟩ := clock.exists_mark
  rw [parts] at inside
  rcases List.mem_append.1 inside with digit | letter
  · have undigited : ∀ c ∈ [':', 'a', 'p'], isDigit c = false := by decide
    have inside := all c digit
    rw [undigited c mark] at inside
    cases inside
  · exact (listed w known).2 c letter mark

/-- Where the calendar has room, no rule but that for times makes a whole of a clock time. -/
theorem agrees_of_clock (clock : WritesTime t h m) (room : o.HasRoom)
    (opening : ∀ words ∈ [g.immediateWords, g.dayWords, g.within, g.following], ∀ w ∈ words,
      AllFolded w.toList ∧ w.toList ≠ [] ∧ ∀ c ∈ w.toList, isDigit c = false)
    (ending : ∀ w ∈ g.ordinalSuffix, AllFolded w.toList ∧ ∀ c ∈ w.toList, c ∉ [':', 'a', 'p'])
    (time : g.Agrees t o stated g.timeRule) : ∀ rule ∈ g.rules, g.Agrees t o stated rule := by
  intro rule listed
  have stays := stays_of_mem_rules room listed
  have whole : (∀ meaning, (meaning, []) ∉ rule t) → g.Agrees t o stated rule :=
    agrees_of_stays listed stays
  simp only [rules, List.mem_cons, List.not_mem_nil, or_false] at listed
  rcases listed with rfl | rfl | rfl | rfl | rfl | rfl | rfl
  · exact whole fun meaning => not_mem_isoRule clock meaning []
  · exact whole fun meaning => not_mem_of_oneOf clock (opening _ (by simp)) meaning []
  · exact whole fun meaning => not_mem_of_oneOf clock (opening _ (by simp)) meaning []
  · exact whole fun meaning => not_mem_of_oneOf clock (opening _ (by simp)) meaning []
  · exact whole fun meaning => not_mem_of_oneOf clock (opening _ (by simp)) meaning []
  · exact whole fun meaning => not_mem_ordinalRule clock ending meaning
  · exact time

end Others

section Builtin
open Vocabulary

variable {language : String} {o : Options} {time : TimeOfDay}

theorem ordinal_spellings : ∀ l ∈ builtinCodes, ∀ w ∈ spellings l "ordinalSuffix", ∀ c ∈ w,
    c ∉ [':', 'a', 'p'] := by
  decide +kernel

theorem prefers_timeRule (g : Casual) (clock : WritesTime t h m) (shows : time.Shows h m) :
    Cut.Prefers g.timeRule t (g.timeMeaning t) [] := by
  obtain ⟨c, whole, -⟩ := g.exists_clockText clock shows
  have taken : g.cutClock.taken.Prefers (t ++ []) (t, c) [] :=
    .taken (by rwa [List.append_nil])
  rw [List.append_nil] at taken
  rw [timeRule_eq]
  exact taken.bind prefers_pure

theorem timeMeaning_eq_ok (g : Casual) (clock : WritesTime t h m) (shows : time.Shows h m)
    (plain : o.forward = false) :
    g.timeMeaning t o = .ok (some ⟨⟨o.reference.date, time⟩, .clock⟩) := by
  simp only [timeMeaning, g.clockTime?_eq_some clock shows, plain, Bool.false_and,
    Bool.false_eq_true, if_false]
  rfl

/-- A clock time is one match, that time on the day of the reference. -/
theorem matches?_clock (known : language ∈ builtinCodes) (clock : WritesTime t h m)
    (shows : time.Shows h m) (room : o.HasRoom) (plain : o.forward = false) :
    (ofTable Table.builtin language).matches? t o =
      .ok [⟨0, String.ofList t, ⟨o.reference.date, time⟩, .clock⟩] := by
  have nonempty : t ≠ [] := by
    obtain ⟨d, more, rfl, -⟩ := clock.begins
    exact List.cons_ne_nil d more
  have whole := (ofTable Table.builtin language).prefers_timeRule clock shows
  have meant := (ofTable Table.builtin language).timeMeaning_eq_ok clock shows plain
  refine matches?_of_whole (by simp [rules]) whole nonempty meant
    (agrees_of_clock clock room ?_ ?_ (agrees_of_whole whole nonempty meant))
  · have word : ∀ {w key : String}, w ∈ Table.builtin.words [language] key →
        AllFolded w.toList ∧ w.toList ≠ [] ∧ ∀ c ∈ w.toList, isDigit c = false := by
      intro w key h
      have written := mem_words_builtin.1 h
      exact ⟨folded_of_mem_spellings written, (plain_of_mem_spellings written).1.1,
        undigited_of_mem_spellings written⟩
    simp only [List.mem_cons, List.not_mem_nil, or_false]
    rintro words (rfl | rfl | rfl | rfl) w listed
    · obtain ⟨i, h⟩ := mem_immediateWords.1 listed
      exact word h
    · obtain ⟨d, h⟩ := mem_dayWords.1 listed
      exact word h
    · exact word (mem_arrange_words.1 listed)
    · exact word (mem_arrange_words.1 listed)
  · intro w listed
    have written := mem_words_builtin.1 (mem_arrange_words.1 listed)
    exact ⟨folded_of_mem_spellings written, ordinal_spellings language known _ written⟩

end Builtin

end Casual

end DatePhrase
