import DatePhrase.Proofs.Grammar.ClockTimes
import DatePhrase.Proofs.Grammar.TrimmedMatches

/-! The forms of clock times. A text that is cut as one has the numerals of an hour and perhaps a
minute and no other digits, and it has a half of the day just when it is on a dial, for that form
is tried first. Main statements: the preferred way to read all of a text finds the hour, minute and
half of the day that the text writes, and these denote a time just when they are in range and in the
digits 0 to 9. -/
namespace DatePhrase
open Text Calendar

namespace Casual
open Cut

/-- An hour of one or two digits and a minute, if any, of two, in the digits of any script. -/
structure Figures (hour : List Char) (minute : Option (List Char)) : Prop where
  numeral : IsNumeral hour
  short : hour.length ≤ 2
  pair : ∀ digits ∈ minute, digits.length = 2 ∧ ∀ c ∈ digits, isDigit c

/-- The text has the hour on a dial: minutes, if any, stand behind a colon or a point, and the half
of the day, in any case, ends it. -/
def OnDial (text hour : List Char) (minute : Option (List Char)) (half : String) : Prop :=
  ∃ mark blanks word, (mark = ':' ∨ mark = '.') ∧ (∀ c ∈ blanks, isBlank c) ∧
    word.map fold = half.toList.map fold ∧
    text = hour ++ (minute.elim [] (mark :: ·) ++ (blanks ++ word))

/-- The text writes a clock time in these numerals, and with this half of the day if it is on a
dial. -/
structure WritesClock (text hour : List Char) (minute : Option (List Char))
    (half : Option String) : Prop where
  numerals : numerals text = hour :: minute.toList
  half : ∀ w, half = some w ↔ w ∈ meridiems ∧ OnDial text hour minute w

/-- An hour of the day, or one to twelve with a half of the day. -/
def HourFits : Option String → Nat → Prop
  | none, hour => hour < 24
  | some _, hour => 1 ≤ hour ∧ hour ≤ 12

/-- The hour of the day: with a half of the day, twelve begins it. -/
def hourOn : Option String → Nat → Nat
  | none, hour => hour
  | some half, hour => hour % 12 + halfDay half

/-- The minute of the hour, 0 if none is written. -/
def minuteOn (minute : Option (List Char)) : Nat := minute.elim 0 valueOf

/-- The part is this half of the day in some case, or there is none. -/
inductive TellsHalf : Option (List Char) → Option String → Prop
  | unhalved : TellsHalf none none
  | half {part : List Char} {half : String} (listed : half ∈ meridiems)
      (spelled : part.map fold = half.toList.map fold) : TellsHalf (some part) (some half)

/-- Parts without a half of the day, with all numerals of the text. -/
structure Unhalved (text : List Char) (c : ClockText) : Prop where
  absent : c.meridiem = none
  figures : Figures c.hour c.minute
  written : numerals text = c.hour :: c.minute.toList

section Forms
variable {hour tail between : List Char} {minute : Option (List Char)} {c : ClockText}
  {text s rest : List Char}

theorem Figures.numeral_of_mem (figures : Figures hour minute) {digits : List Char}
    (written : digits ∈ minute) : IsNumeral digits := by
  obtain ⟨two, all⟩ := figures.pair digits written
  exact ⟨List.ne_nil_of_length_pos (by omega), all⟩

/-- The numerals of a text with an hour, a minute if any, and no other digits. -/
theorem Figures.numerals_eq (figures : Figures hour minute)
    (clear : ∀ c ∈ between, isDigit c = false) (parted : minute ≠ none → between ≠ [])
    (clear' : ∀ c ∈ tail, isDigit c = false) :
    numerals (hour ++ (between ++ (minute.getD [] ++ tail))) = hour :: minute.toList := by
  have ends : Stops isDigit tail := by simpa using stops_of_clear clear' stops_nil
  cases minute with
  | none =>
    rw [Option.getD_none, List.nil_append, numerals_append figures.numeral
      (stops_of_clear clear ends), numerals_clear_append clear, numerals_of_clear clear']
    rfl
  | some digits =>
    have begins : Stops isDigit between := fun c hc => clear c (List.mem_of_mem_head? hc)
    rw [Option.getD_some, numerals_append figures.numeral
      ((stops_append (parted (by simp))).2 begins), numerals_clear_append clear,
      numerals_append (figures.numeral_of_mem rfl) ends, numerals_of_clear clear']
    rfl

/-- An optional pair of digits behind something else. -/
theorem mem_optional_pair {α : Type} {lead : Cut α} :
    (minute, rest) ∈ Cut.optional (lead >>= fun _ => Cut.exactly isDigit 2) s ↔
      (∃ digits, minute = some digits ∧ (digits.length = 2 ∧ ∀ c ∈ digits, isDigit c) ∧
        ∃ a, (a, digits ++ rest) ∈ lead s) ∨ minute = none ∧ rest = s := by
  simp only [mem_optional, mem_bind, mem_exactly]
  constructor
  · rintro (⟨digits, rfl, a, mid, way, rfl, pair⟩ | skipped)
    · exact .inl ⟨digits, rfl, pair, a, way⟩
    · exact .inr skipped
  · rintro (⟨digits, rfl, pair, a, way⟩ | skipped)
    · exact .inl ⟨digits, rfl, a, _, way, rfl, pair⟩
    · exact .inr skipped

theorem of_mem_cutDial (way : (c, []) ∈ cutDial text) : Figures c.hour c.minute ∧
    ∃ half ∈ meridiems, TellsHalf c.meridiem (some half) ∧ OnDial text c.hour c.minute half := by
  obtain ⟨hour, s₁, first, way⟩ := mem_bind.1 way
  obtain ⟨minute, s₂, second, way⟩ := mem_bind.1 way
  obtain ⟨blanks, s₃, third, way⟩ := mem_bind.1 way
  obtain ⟨word, s₄, fourth, last⟩ := mem_bind.1 way
  obtain ⟨rfl, rfl⟩ := mem_pure.1 last
  obtain ⟨rfl, nonempty, short, all⟩ := mem_oneTo.1 first
  obtain ⟨rfl, blank⟩ := mem_many.1 third
  obtain ⟨rfl, half, listed, spelled⟩ := mem_oneOf_iff.1 fourth
  rw [List.append_nil] at second
  rcases mem_optional_pair.1 second with ⟨digits, rfl, pair, mark, way⟩ | ⟨rfl, rfl⟩
  · obtain ⟨marked, rfl⟩ := mem_char.1 way
    exact ⟨⟨⟨nonempty, all⟩, short, fun _ h => Option.some.inj h ▸ pair⟩, half, listed,
      .half listed spelled, mark, blanks, word, by simpa using marked, blank, spelled, rfl⟩
  · exact ⟨⟨⟨nonempty, all⟩, short, nofun⟩, half, listed, .half listed spelled, ':', blanks, word,
      .inl rfl, blank, spelled, rfl⟩

theorem OnDial.half_unique {half half' : String} (dial : OnDial text hour minute half)
    (dial' : OnDial text hour minute half') (listed : half ∈ meridiems)
    (listed' : half' ∈ meridiems) : half = half' := by
  have apart : ∀ a ∈ meridiems, ∀ b ∈ meridiems,
      a.toList.map fold = b.toList.map fold → a = b := by decide +kernel
  have solid : ∀ {w part}, w ∈ meridiems → part.map fold = w.toList.map fold → Solid part :=
    fun known same => .of_spells (by decide) ⟨_, known, same⟩
  obtain ⟨mark, blanks, word, -, blank, spelled, parts⟩ := dial
  obtain ⟨mark', blanks', word', -, blank', spelled', parts'⟩ := dial'
  have same := List.append_cancel_left (parts.symm.trans parts')
  have ending : blanks ++ word = blanks' ++ word' := by
    cases minute with
    | none => exact same
    | some digits => exact List.append_cancel_left (List.cons.inj same).2
  obtain ⟨-, rfl⟩ := run_unique ending blank (solid listed spelled).stops blank'
    (solid listed' spelled').stops
  exact apart half listed half' listed' (spelled.symm.trans spelled')

theorem OnDial.cutDial_ne_nil {half : String} (dial : OnDial text hour minute half)
    (figures : Figures hour minute) (listed : half ∈ meridiems) : cutDial text ≠ [] := by
  obtain ⟨mark, blanks, word, marked, blank, spelled, rfl⟩ := dial
  have pair : (minute, blanks ++ word) ∈ (Cut.optional do
      let _ ← Cut.char fun c => c = ':' || c = '.'
      Cut.exactly isDigit 2) (minute.elim [] (mark :: ·) ++ (blanks ++ word)) := by
    refine mem_optional_pair.2 ?_
    cases minute with
    | none => exact .inr ⟨rfl, rfl⟩
    | some digits =>
      exact .inl ⟨digits, rfl, figures.pair digits rfl, mark,
        mem_char.2 ⟨by simpa using marked, rfl⟩⟩
  have ending : (word, []) ∈ oneOf meridiems word :=
    mem_oneOf_iff.2 ⟨(List.append_nil word).symm, half, listed, spelled⟩
  have way : (⟨hour, minute, some word⟩, []) ∈ cutDial _ :=
    mem_bind.2 ⟨hour, _, mem_oneTo.2 ⟨rfl, figures.numeral.1, figures.short, figures.numeral.2⟩,
      mem_bind.2 ⟨minute, _, pair, mem_bind.2 ⟨blanks, _, mem_many.2 ⟨rfl, blank⟩,
        mem_bind.2 ⟨word, _, ending, mem_pure.2 ⟨rfl, rfl⟩⟩⟩⟩⟩
  exact List.ne_nil_of_mem way

theorem OnDial.numerals_eq {half : String} (dial : OnDial text hour minute half)
    (figures : Figures hour minute) (listed : half ∈ meridiems) :
    numerals text = hour :: minute.toList := by
  obtain ⟨mark, blanks, word, marked, blank, spelled, rfl⟩ := dial
  have letters : Spells meridiems word := ⟨half, listed, spelled⟩
  have clear := undigited_of_gap blank (undigited_of_spells (by decide) letters)
  cases minute with
  | none =>
    have sharp : ∀ c ∈ ([] : List Char), isDigit c = false := nofun
    simpa using figures.numerals_eq sharp (by simp) clear
  | some digits =>
    have undigited : ∀ c ∈ [mark], isDigit c = false := by
      rcases marked with rfl | rfl <;> decide
    simpa using figures.numerals_eq undigited (by simp) clear

theorem OnDial.writesClock {half : String} (dial : OnDial text hour minute half)
    (figures : Figures hour minute) (listed : half ∈ meridiems) :
    WritesClock text hour minute (some half) := by
  refine ⟨dial.numerals_eq figures listed, fun w => ⟨?_, ?_⟩⟩
  · rintro ⟨⟩
    exact ⟨listed, dial⟩
  · rintro ⟨listed', dial'⟩
    rw [dial.half_unique dial' listed listed']

/-- What cannot be cut as a time on a dial writes no half of the day. -/
theorem Unhalved.writesClock (parts : Unhalved text c) (none : cutDial text = []) :
    WritesClock text c.hour c.minute .none := by
  refine ⟨parts.written, fun w => ⟨nofun, ?_⟩⟩
  rintro ⟨listed, dial⟩
  exact absurd none (dial.cutDial_ne_nil parts.figures listed)

/-- All digits of the text are in its hour and its minute. -/
theorem WritesClock.forall_digits {half : Option String}
    (writes : WritesClock text hour minute half) {p : Char → Prop} :
    (∀ c ∈ text, isDigit c → p c) ↔ (∀ c ∈ hour, p c) ∧ ∀ digits ∈ minute, ∀ c ∈ digits, p c := by
  have all : text.filter isDigit = hour ++ minute.getD [] := by
    rw [← flatten_numerals, writes.numerals]
    cases minute <;> simp
  have each : (∀ c ∈ text, isDigit c → p c) ↔ ∀ c ∈ text.filter isDigit, p c := by
    simp [List.mem_filter]
  rw [each, all, List.forall_mem_append]
  cases minute <;> simp

theorem unhalved_of_mem_cutColon (way : (c, []) ∈ cutColon text) : Unhalved text c := by
  obtain ⟨hour, s₁, first, way⟩ := mem_bind.1 way
  obtain ⟨colon, s₂, second, way⟩ := mem_bind.1 way
  obtain ⟨digits, s₃, third, last⟩ := mem_bind.1 way
  obtain ⟨rfl, rfl⟩ := mem_pure.1 last
  obtain ⟨rfl, nonempty, short, all⟩ := mem_oneTo.1 first
  obtain ⟨mark, rfl⟩ := mem_char.1 second
  obtain ⟨rfl, pair⟩ := mem_exactly.1 third
  obtain rfl : colon = ':' := of_decide_eq_true mark
  have figures : Figures hour (some digits) :=
    ⟨⟨nonempty, all⟩, short, fun _ h => Option.some.inj h ▸ pair⟩
  have colon : ∀ c ∈ [':'], isDigit c = false := by decide
  have ends : ∀ c ∈ ([] : List Char), isDigit c = false := nofun
  exact ⟨rfl, figures, by simpa using figures.numerals_eq colon (by simp) ends⟩

theorem HourFits.hourOn_lt {half : Option String} {h : Nat} (fits : HourFits half h) :
    hourOn half h < 24 := by
  cases half with
  | none => exact fits
  | some half =>
    have noon : halfDay half ≤ 12 := by
      rw [halfDay]
      split <;> omega
    rw [hourOn]
    omega

theorem hourOfDay?_eq_some_iff {part : Option (List Char)} {half : Option String} {h n : Nat}
    (tells : TellsHalf part half) :
    (hourOfDay? part h = some n ∧ n < 24) ↔ HourFits half h ∧ hourOn half h = n := by
  cases tells with
  | unhalved =>
    simp only [hourOfDay?, Option.some.injEq, HourFits, hourOn]
    omega
  | @half part half listed spelled =>
    by_cases range : 1 ≤ h ∧ h ≤ 12
    · rw [hourOfDay?_eq_some range.1 range.2 listed spelled, Option.some.injEq]
      constructor
      · rintro ⟨same, -⟩
        exact ⟨range, same⟩
      · rintro ⟨fits, same⟩
        exact ⟨same, same ▸ fits.hourOn_lt⟩
    · have out : h < 1 ∨ 12 < h := by omega
      rw [hourOfDay?, if_pos out]
      constructor
      · rintro ⟨⟨⟩, -⟩
      · rintro ⟨fits, -⟩
        exact absurd fits range

theorem exists_hourOfDay?_iff {part : Option (List Char)} {half : Option String} {h m : Nat}
    {time : TimeOfDay} (tells : TellsHalf part half) :
    (∃ n, hourOfDay? part h = some n ∧ n < 24 ∧ m < 60 ∧ time.Shows n m) ↔
      HourFits half h ∧ m < 60 ∧ time.Shows (hourOn half h) m := by
  constructor
  · rintro ⟨n, read, early, before, shows⟩
    obtain ⟨fits, rfl⟩ := (hourOfDay?_eq_some_iff tells).1 ⟨read, early⟩
    exact ⟨fits, before, shows⟩
  · rintro ⟨fits, before, shows⟩
    obtain ⟨read, early⟩ := (hourOfDay?_eq_some_iff tells).2 ⟨fits, rfl⟩
    exact ⟨_, read, early, before, shows⟩

/-- The parts of a clock time denote a time just when they are in range and in the digits 0 to 9. -/
theorem time?_eq_some_iff {half : Option String} {time : TimeOfDay}
    (figures : Figures c.hour c.minute) (tells : TellsHalf c.meridiem half) : c.time? = some time ↔
      ((∀ x ∈ c.hour, IsPlainDigit x) ∧ ∀ digits ∈ c.minute, ∀ x ∈ digits, IsPlainDigit x) ∧
      HourFits half (valueOf c.hour) ∧ minuteOn c.minute < 60 ∧
        time.Shows (hourOn half (valueOf c.hour)) (minuteOn c.minute) := by
  obtain ⟨hour, minute, meridiem⟩ := c
  have nonempty : hour ≠ [] := figures.numeral.1
  cases minute with
  | none =>
    simp only [ClockText.time?, Option.bind_eq_bind, Option.bind_eq_some_iff, readNat?_eq_some_iff,
      TimeOfDay.ofClock?_eq_some_iff, exists_hourOfDay?_iff tells]
    simp [Writes, nonempty, minuteOn]
  | some digits =>
    have filled : digits ≠ [] := (figures.numeral_of_mem rfl).1
    simp only [ClockText.time?, Option.bind_eq_bind, Option.bind_eq_some_iff, readNat?_eq_some_iff,
      TimeOfDay.ofClock?_eq_some_iff, exists_hourOfDay?_iff tells]
    simp [Writes, nonempty, filled, minuteOn, and_assoc]

section Undigited
variable {t : Table} {language : String}
  (undigited : ∀ key ∈ ["hourSuffix", "minuteSuffix"], ∀ w ∈ t.words [language] key,
    ∀ c ∈ w.toList, isDigit c = false)
include undigited

theorem undigited_of_spells_keyed {key : String} (known : key ∈ ["hourSuffix", "minuteSuffix"])
    {part : List Char} (spelled : Spells (Vocabulary.arrange (t.words [language] key)) part) :
    ∀ c ∈ part, isDigit c = false :=
  undigited_of_spells
    (fun w listed => undigited key known w (Vocabulary.mem_arrange_words.1 listed)) spelled

/-- A time with the language's words has no digits but those of its hour and its minute. -/
theorem unhalved_of_mem_cutSuffixed (way : (c, []) ∈ (ofTable t language).cutSuffixed text) :
    Unhalved text c := by
  obtain ⟨hour, s₁, first, way⟩ := mem_bind.1 way
  obtain ⟨blanks, s₂, second, way⟩ := mem_bind.1 way
  obtain ⟨suffix, s₃, third, way⟩ := mem_bind.1 way
  obtain ⟨minute, s₄, fourth, way⟩ := mem_bind.1 way
  obtain ⟨ending, s₅, fifth, last⟩ := mem_bind.1 way
  obtain ⟨rfl, rfl⟩ := mem_pure.1 last
  obtain ⟨rfl, nonempty, short, all⟩ := mem_oneTo.1 first
  obtain ⟨rfl, blank⟩ := mem_many.1 second
  obtain ⟨rfl, spelled⟩ := mem_oneOf_iff.1 third
  have word := Solid.of_spells solid_keyed spelled
  have clear : ∀ c ∈ suffix, isDigit c = false :=
    undigited_of_spells_keyed undigited (by simp) spelled
  have clear' : ∀ c ∈ s₄, isDigit c = false := by
    rcases mem_optional.1 fifth with ⟨part, -, way⟩ | ⟨-, rfl⟩
    · obtain ⟨gap, s₆, sixth, seventh⟩ := mem_bind.1 way
      obtain ⟨rfl, blank'⟩ := mem_many.1 sixth
      obtain ⟨rfl, spelled'⟩ := mem_oneOf_iff.1 seventh
      rw [List.append_nil]
      exact undigited_of_gap blank' (undigited_of_spells_keyed undigited (by simp) spelled')
    · exact nofun
  rcases mem_optional_pair.1 fourth with ⟨digits, rfl, pair, gap, way⟩ | ⟨rfl, rfl⟩
  · obtain ⟨rfl, blank'⟩ := mem_many.1 way
    have figures : Figures hour (some digits) :=
      ⟨⟨nonempty, all⟩, short, fun _ h => Option.some.inj h ▸ pair⟩
    have parted : ∀ c ∈ suffix ++ gap, isDigit c = false :=
      List.forall_mem_append.2 ⟨clear, fun c hc => isDigit_of_isBlank (blank' c hc)⟩
    refine ⟨rfl, figures, ?_⟩
    simpa using figures.numerals_eq (undigited_of_gap blank parted) (by simp [word.nonempty]) clear'
  · have figures : Figures hour none := ⟨⟨nonempty, all⟩, short, nofun⟩
    refine ⟨rfl, figures, ?_⟩
    simpa using figures.numerals_eq (undigited_of_gap blank clear) nofun clear'

/-- The preferred way to read a text as a clock time finds the parts that it writes. -/
theorem exists_half_of_prefers (first : (ofTable t language).cutClock.Prefers text c []) :
    ∃ half, TellsHalf c.meridiem half ∧ Figures c.hour c.minute ∧
      WritesClock text c.hour c.minute half := by
  -- the later forms are tried only where there is no way to read a time on a dial
  have later : cutDial text = [] → Unhalved text c → ∃ half, TellsHalf c.meridiem half ∧
      Figures c.hour c.minute ∧ WritesClock text c.hour c.minute half := by
    intro none parts
    exact ⟨.none, parts.absent ▸ .unhalved, parts.figures, parts.writesClock none⟩
  rcases prefers_of_prefers_or first with first | ⟨none, suffixed⟩
  · rcases prefers_of_prefers_or first with dial | ⟨none, colon⟩
    · obtain ⟨figures, half, listed, tells, dial⟩ := of_mem_cutDial (List.mem_of_mem_head? dial)
      exact ⟨some half, tells, figures, dial.writesClock figures listed⟩
    · exact later none (unhalved_of_mem_cutColon (List.mem_of_mem_head? colon))
  · exact later (List.append_eq_nil_iff.1 none).1
      (unhalved_of_mem_cutSuffixed undigited (List.mem_of_mem_head? suffixed))

end Undigited

end Forms

end Casual

end DatePhrase
