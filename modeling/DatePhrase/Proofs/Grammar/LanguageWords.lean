import DatePhrase.Proofs.Grammar.HiddenWords
import DatePhrase.Proofs.Vocabulary.Builtin

/-! The words that the casual grammar of a language at hand knows, and what they have to do with
each other. Main statements: in words do not begin one another, each unit word and each day word has
one meaning, and day words and in words hide the weekdays that stand in them. -/
namespace DatePhrase
open Text Calendar

namespace Casual
variable {t : Table} {language w : String}

theorem mem_immediateWords : w ∈ (ofTable t language).immediateWords ↔
    ∃ i : Immediate, w ∈ t.words [language] i.name := by
  simp only [ofTable, Vocabulary.mem_arrange, List.mem_map, Prod.exists, exists_and_right,
    exists_eq_right, Vocabulary.mem_meanings, Immediate.mem_all, true_and]
  constructor
  · exact And.left
  · rintro ⟨i, h⟩
    exact ⟨⟨i, h⟩, Table.ne_empty_of_mem_words h⟩

theorem mem_dayWords : w ∈ (ofTable t language).dayWords ↔
    ∃ day : Weekday, w ∈ t.words [language] day.name := by
  simp only [ofTable, Vocabulary.mem_arrange, List.mem_map, List.mem_reverse, Prod.exists,
    exists_and_right, exists_eq_right, Vocabulary.mem_meanings, Weekday.mem_all, true_and]
  constructor
  · exact And.left
  · rintro ⟨day, h⟩
    exact ⟨⟨day, h⟩, Table.ne_empty_of_mem_words h⟩

theorem mem_unitWords : w ∈ (ofTable t language).unitWords ↔
    ∃ unit : TimeUnit, w ∈ t.words [language] unit.name := by
  simp only [ofTable, Vocabulary.mem_arrange, List.mem_map, Prod.exists, exists_and_right,
    exists_eq_right, Vocabulary.mem_meanings, TimeUnit.mem_all, true_and]
  constructor
  · exact And.left
  · rintro ⟨unit, h⟩
    exact ⟨⟨unit, h⟩, Table.ne_empty_of_mem_words h⟩

theorem mem_immediate {i : Immediate} :
    (w, i) ∈ (ofTable t language).immediate ↔ w ∈ t.words [language] i.name := by
  simp only [ofTable, Vocabulary.mem_meanings, Immediate.mem_all, true_and]

theorem mem_days {day : Weekday} :
    (w, day) ∈ (ofTable t language).days ↔ w ∈ t.words [language] day.name := by
  simp only [ofTable, List.mem_reverse, Vocabulary.mem_meanings, Weekday.mem_all, true_and]

theorem mem_units {unit : TimeUnit} :
    (w, unit) ∈ (ofTable t language).units ↔ w ∈ t.words [language] unit.name := by
  simp only [ofTable, Vocabulary.mem_meanings, TimeUnit.mem_all, true_and]

theorem bounded_of_spaced
    (immediate : ∀ i : Immediate, ∀ w ∈ t.words [language] i.name, ∀ c ∈ w.toList, !isUnspaced c)
    (days : ∀ d : Weekday, ∀ w ∈ t.words [language] d.name, ∀ c ∈ w.toList, !isUnspaced c) :
    (ofTable t language).bounded := by
  simp only [ofTable, Bool.not_eq_eq_eq_not, Bool.not_true, List.any_eq_false, List.mem_append,
    List.mem_map, List.mem_reverse, Prod.exists, exists_and_right, exists_eq_right,
    Vocabulary.mem_meanings]
  rintro w (⟨i, -, listed⟩ | ⟨d, -, listed⟩) any
  · obtain ⟨c, inside, unspaced⟩ := List.any_eq_true.1 any
    simpa [unspaced] using immediate i w listed c inside
  · obtain ⟨c, inside, unspaced⟩ := List.any_eq_true.1 any
    simpa [unspaced] using days d w listed c inside

end Casual

namespace Vocabulary
open Casual

/-- The words for now, today, tomorrow and yesterday, as they are written. -/
def immediateSpellings (language : String) : List (List Char) :=
  Immediate.all.flatMap fun i => spellings language i.name

/-- The names of the weekdays, as they are written. -/
def daySpellings (language : String) : List (List Char) :=
  Weekday.all.flatMap fun d => spellings language d.name

theorem immediate_spellings : ∀ l ∈ builtinCodes, ∀ i ∈ Immediate.all, ∀ w ∈ spellings l i.name,
    (∀ j ∈ Immediate.all, w ∈ spellings l j.name → j = i) ∧
      (∀ f ∈ spellings l "next", ¬ f <+: w) ∧ Hides (l ≠ "ja") (daySpellings l) w := by
  decide +kernel

theorem within_spellings : ∀ l ∈ builtinCodes, ∀ i ∈ spellings l "in", l ≠ "ja" ∧
    (∀ j ∈ spellings l "in", i <+: j → j = i) ∧
    (∀ f ∈ spellings l "next", ¬ f <+: i ∧ ¬ i <+: f) ∧
      HidesBehind (immediateSpellings l ++ daySpellings l) i := by
  decide +kernel

theorem unit_spellings : ∀ l ∈ builtinCodes, ∀ u ∈ TimeUnit.all, ∀ w ∈ spellings l u.name,
    (∀ v ∈ TimeUnit.all, w ∈ spellings l v.name → v = u) ∧
      w ∉ immediateSpellings l ++ daySpellings l ∧ ∀ c ∈ w, isAlphanumeric c := by
  decide +kernel

theorem spaced_spellings : ∀ l ∈ builtinCodes, l ≠ "ja" →
    ∀ w ∈ immediateSpellings l ++ daySpellings l, ∀ c ∈ w, !isUnspaced c := by
  decide +kernel

theorem solid_spellings {language : String} {part : List Char}
    (h : part ∈ immediateSpellings language ++ daySpellings language) :
    part ≠ [] ∧ Stops isBlank part ∧ Tight part ∧ ∀ c ∈ part, isDigit c = false := by
  have keyed : ∃ key, part ∈ spellings language key := by
    rcases List.mem_append.1 h with h | h
    · obtain ⟨i, -, listed⟩ := List.mem_flatMap.1 h
      exact ⟨_, listed⟩
    · obtain ⟨d, -, listed⟩ := List.mem_flatMap.1 h
      exact ⟨_, listed⟩
  obtain ⟨key, listed⟩ := keyed
  obtain ⟨⟨filled, stops, tight⟩, -⟩ := plain_of_mem_spellings listed
  exact ⟨filled, stops, tight, undigited_of_mem_spellings listed⟩

end Vocabulary

namespace Casual
open Vocabulary

variable {language w : String}

theorem immediateWords_subset : (ofTable Table.builtin language).immediateWords.map String.toList ⊆
    immediateSpellings language := by
  intro part listed
  obtain ⟨w, known, rfl⟩ := List.mem_map.1 listed
  obtain ⟨i, h⟩ := mem_immediateWords.1 known
  exact List.mem_flatMap.2 ⟨i, i.mem_all, mem_words_builtin.1 h⟩

theorem dayWords_subset : (ofTable Table.builtin language).dayWords.map String.toList ⊆
    daySpellings language := by
  intro part listed
  obtain ⟨w, known, rfl⟩ := List.mem_map.1 listed
  obtain ⟨d, h⟩ := mem_dayWords.1 known
  exact List.mem_flatMap.2 ⟨d, d.mem_all, mem_words_builtin.1 h⟩

theorem bounded_builtin (known : language ∈ builtinCodes) (spaced : language ≠ "ja") :
    (ofTable Table.builtin language).bounded := by
  apply bounded_of_spaced
  · intro i w listed
    exact spaced_spellings language known spaced w.toList (List.mem_append_left _
      (List.mem_flatMap.2 ⟨i, i.mem_all, mem_words_builtin.1 listed⟩))
  · intro d w listed
    exact spaced_spellings language known spaced w.toList (List.mem_append_right _
      (List.mem_flatMap.2 ⟨d, d.mem_all, mem_words_builtin.1 listed⟩))

/-- No weekday stands by itself in a day word. -/
theorem hides_immediate (known : language ∈ builtinCodes) {i : Immediate}
    (listed : w ∈ Table.builtin.words [language] i.name) :
    Hides (ofTable Table.builtin language).bounded
      ((ofTable Table.builtin language).dayWords.map String.toList) w.toList := by
  obtain ⟨-, -, hides⟩ :=
    immediate_spellings language known i i.mem_all w.toList (mem_words_builtin.1 listed)
  exact hides.mono (fun spaced => bounded_builtin known (of_decide_eq_true spaced)) dayWords_subset

end Casual

end DatePhrase
