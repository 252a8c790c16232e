import DatePhrase.Proofs.Vocabulary.Builtin

/-! Weekdays and the words that choose a week, over all languages at hand together. Main statements:
each of these words has one meaning, whatever languages are asked for, and none has a blank in it;
no word that the weekday may touch begins another one. -/
namespace DatePhrase
open Text Calendar

namespace WeekChoice

def all : List WeekChoice := [current, following, preceding]

theorem mem_all (week : WeekChoice) : week ∈ all := by cases week <;> decide

end WeekChoice

namespace Vocabulary

/-- The words that choose a week, with the week. -/
def choiceEntries : List (List Char × WeekChoice) :=
  builtinCodes.flatMap fun l => WeekChoice.all.flatMap fun week =>
    (spellings l week.name).map (·, week)

/-- The names of weekdays, with the weekday. -/
def dayEntries : List (List Char × Weekday) :=
  (builtinCodes.flatMap fun l => Weekday.all.flatMap fun day =>
    (spellings l day.name).map (·, day)) ++ baseDays.map fun e => (e.1.toList, e.2)

theorem choice_entries : ∀ e ∈ choiceEntries, ' ' ∉ e.1 ∧ choiceEntries.lookup e.1 = some e.2 ∧
    (e.1.getLast?.any isUnspaced → ∀ f ∈ choiceEntries, e.1 <+: f.1 → e.1 = f.1) := by
  decide +kernel

theorem day_entries : ∀ e ∈ dayEntries, ' ' ∉ e.1 ∧ dayEntries.lookup e.1 = some e.2 := by
  decide +kernel

theorem at_spellings : ∀ l ∈ builtinCodes, ∀ a ∈ spellings l "at", ' ' ∉ a := by
  decide +kernel

variable {languages : List String} {key w : String}

/-- A word without spaces has no blanks. -/
theorem solid_of_mem_words (listed : w ∈ Table.builtin.words languages key)
    (clear : ' ' ∉ w.toList) : ∀ c ∈ w.toList, isBlank c = false := by
  obtain ⟨l, -, h⟩ := Table.mem_words_iff.1 listed
  intro c inside
  refine solid_of_plain ((plain_of_mem_spellings (mem_words_builtin.1 h)).2 c inside) ?_
  rintro rfl
  exact clear inside

section Known
variable (known : ∀ l ∈ languages, l ∈ builtinCodes)
include known

theorem mem_choiceEntries {week : WeekChoice}
    (listed : w ∈ Table.builtin.words languages week.name) : (w.toList, week) ∈ choiceEntries := by
  obtain ⟨l, member, written⟩ := exists_spelling known listed
  exact List.mem_flatMap.2 ⟨l, member, List.mem_flatMap.2 ⟨week, week.mem_all,
    List.mem_map.2 ⟨_, written, rfl⟩⟩⟩

theorem mem_dayEntries {day : Weekday}
    (listed : w ∈ Table.builtin.words languages day.name) : (w.toList, day) ∈ dayEntries := by
  obtain ⟨l, member, written⟩ := exists_spelling known listed
  exact List.mem_append_left _ (List.mem_flatMap.2 ⟨l, member, List.mem_flatMap.2
    ⟨day, day.mem_all, List.mem_map.2 ⟨_, written, rfl⟩⟩⟩)

/-- A word chooses one week. -/
theorem choice?_eq_some {week : WeekChoice}
    (listed : w ∈ Table.builtin.words languages week.name) :
    (ofTable Table.builtin languages).choice? w = some week := by
  obtain ⟨chosen, classified⟩ := exists_choice? listed
  obtain ⟨-, own, -⟩ := choice_entries _ (mem_choiceEntries known listed)
  obtain ⟨-, other, -⟩ :=
    choice_entries _ (mem_choiceEntries known (mem_words_of_choice? classified))
  rw [classified, ← own, ← other]

/-- A name has one weekday. -/
theorem lookup_day {day : Weekday} (listed : w ∈ Table.builtin.words languages day.name) :
    (ofTable Table.builtin languages).days.lookup w = some day := by
  obtain ⟨found, entry⟩ := exists_day listed
  have member : (w.toList, found) ∈ dayEntries := by
    rcases mem_days_ofTable.1 (mem_of_lookup entry) with named | base
    · exact mem_dayEntries known named
    · exact List.mem_append_right _ (List.mem_map.2 ⟨_, base, rfl⟩)
  obtain ⟨-, own⟩ := day_entries _ (mem_dayEntries known listed)
  obtain ⟨-, other⟩ := day_entries _ member
  rw [entry, ← own, ← other]

theorem solid_choice {week : WeekChoice} (listed : w ∈ Table.builtin.words languages week.name) :
    ∀ c ∈ w.toList, isBlank c = false :=
  solid_of_mem_words listed (choice_entries _ (mem_choiceEntries known listed)).1

theorem solid_day {day : Weekday} (listed : w ∈ Table.builtin.words languages day.name) :
    ∀ c ∈ w.toList, isBlank c = false :=
  solid_of_mem_words listed (day_entries _ (mem_dayEntries known listed)).1

theorem solid_at (listed : w ∈ Table.builtin.words languages "at") :
    ∀ c ∈ w.toList, isBlank c = false := by
  obtain ⟨l, member, written⟩ := exists_spelling known listed
  exact solid_of_mem_words listed (at_spellings l member _ written)

end Known

end Vocabulary

end DatePhrase
