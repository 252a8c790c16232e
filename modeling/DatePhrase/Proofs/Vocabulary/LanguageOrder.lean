import DatePhrase.Proofs.Vocabulary.Words

/-! A vocabulary does not depend on the order of its languages. A word listed in several places has
its meaning by a rank of the keys, and the words of a list are arranged by their letters. Only a
word under several units is counted by the last language that lists it. Main statement: lists of
languages with the same codes make the same tables and patterns, but for the units of such words. -/
namespace DatePhrase
open Calendar

variable {t : Table} {languages others : List String} {key w : String}

/-- Which words stand under a key depends on the languages alone, not on their order. -/
theorem Table.mem_words_congr (same : ∀ code, code ∈ languages ↔ code ∈ others) :
    w ∈ t.words languages key ↔ w ∈ t.words others key := by
  rw [mem_words_iff, mem_words_iff]
  simp only [same]

namespace Vocabulary

/-- Two vocabularies with the same meanings of day words, the same words and the same patterns. -/
structure Agree (v u : Vocabulary) : Prop where
  immediate : ∀ w, v.immediate.lookup w = u.immediate.lookup w
  current : v.current = u.current
  following : v.following = u.following
  preceding : v.preceding = u.preceding
  days : ∀ w, v.days.lookup w = u.days.lookup w
  patterns : v.patterns = u.patterns

section
variable (same : ∀ code, code ∈ languages ↔ code ∈ others)
include same

theorem mem_choiceWords_congr (w : String) : w ∈ choiceWords t languages ↔ w ∈ choiceWords t others := by
  simp only [mem_choiceWords, Table.mem_words_congr same]

/-- All lists of words are the same, and so are the patterns made of them. -/
theorem patterns_congr : (ofTable t languages).patterns = (ofTable t others).patterns := by
  have words (key : String) : arrange (t.words languages key) = arrange (t.words others key) :=
    arrange_congr fun w => Table.mem_words_congr same
  have spaced : arrange (spacedWords (choiceWords t languages)) =
      arrange (spacedWords (choiceWords t others)) := arrange_congr fun w => by
    simp only [spacedWords, List.mem_filter, mem_choiceWords_congr same]
  have touching : arrange (touchingWords (choiceWords t languages)) =
      arrange (touchingWords (choiceWords t others)) := arrange_congr fun w => by
    simp only [touchingWords, List.mem_filter, mem_choiceWords_congr same]
  have days : arrange ((dayMeanings t languages).map (·.1)) =
      arrange ((dayMeanings t others).map (·.1)) := arrange_congr fun w => by
    simp only [List.mem_map, Prod.exists, mem_dayMeanings, Table.mem_words_congr same]
  have units : arrange ((unitMeanings t languages).map (·.1)) =
      arrange ((unitMeanings t others).map (·.1)) := arrange_congr fun w => by
    simp only [List.mem_map, Prod.exists, mem_unitMeanings, Table.mem_words_congr same]
  simp only [patterns, ofTable, words, spaced, touching, days, units]

theorem agree_ofTable : (ofTable t languages).Agree (ofTable t others) where
  immediate w := by simp only [lookup_immediate_ofTable, Table.mem_words_congr same]
  current := arrange_congr fun _ => Table.mem_words_congr same
  following := arrange_congr fun _ => Table.mem_words_congr same
  preceding := arrange_congr fun _ => Table.mem_words_congr same
  days w := by simp only [lookup_days_ofTable, Table.mem_words_congr same]
  patterns := patterns_congr same

end

/-- Languages in another order or listed more than once make no difference. Immediate words take
the first of their meanings from now to yesterday, day names the last of theirs from Sunday to
Saturday, before the English names known in every language; words, patterns and the units of words
under one unit are the same. -/
theorem ofTable_of_same_codes (t : Table) (languages others : List String)
    (same : ∀ code, code ∈ languages ↔ code ∈ others) :
    let v := ofTable t languages
    let u := ofTable t others
    v.Agree u ∧
    (∀ w, v.immediate.lookup w = Immediate.all.find? (w ∈ t.words languages ·.name)) ∧
    (∀ w, v.days.lookup w =
      (Weekday.all.reverse.find? (w ∈ t.words languages ·.name)).or (baseDays.lookup w)) ∧
    ∀ w, ∀ unit : TimeUnit, w ∈ t.words languages unit.name →
      (∀ other : TimeUnit, w ∈ t.words languages other.name → other = unit) →
      v.units.lookup w = some unit ∧ u.units.lookup w = some unit := by
  refine ⟨agree_ofTable same, lookup_immediate_ofTable, lookup_days_ofTable,
    fun w unit listed single => ⟨lookup_units_ofTable listed single, ?_⟩⟩
  have listed' := (Table.mem_words_congr same).1 listed
  exact lookup_units_ofTable listed' fun other entry =>
    single other ((Table.mem_words_congr same).2 entry)

/-- Two languages with one word for now and for tomorrow, a name of two weekdays that is English for
a third, and a word for hours. -/
theorem ofTable_of_same_codes_overlapping :
    let xx := (Table.empty.insert "xx" "now" "zap").insert "xx" "friday" "sun"
    let t := ((xx.insert "yy" "tomorrow" "zap").insert "yy" "monday" "sun").insert "yy" "hour" "h"
    let v := ofTable t ["yy", "xx"]
    let u := ofTable t ["xx", "yy", "xx"]
    (∀ code, code ∈ ["yy", "xx"] ↔ code ∈ ["xx", "yy", "xx"]) ∧ v.Agree u ∧
      v.immediate.lookup "zap" = some .now ∧ v.days.lookup "sun" = some .friday ∧
      v.days.lookup "sunday" = some .sunday ∧
      v.units.lookup "h" = some .hour ∧ u.units.lookup "h" = some .hour := by
  intro xx t v u
  have same : ∀ code, code ∈ ["yy", "xx"] ↔ code ∈ ["xx", "yy", "xx"] := by
    intro code
    simp only [List.mem_cons, List.not_mem_nil, or_false]
    tauto
  obtain ⟨agree, immediate, days, units⟩ := ofTable_of_same_codes t ["yy", "xx"] ["xx", "yy", "xx"] same
  have hour : "h" ∈ t.words ["yy", "xx"] TimeUnit.hour.name := by decide +kernel
  have single : ∀ other : TimeUnit, "h" ∈ t.words ["yy", "xx"] other.name → other = .hour := by
    intro other
    cases other <;> decide +kernel
  refine ⟨same, agree, (immediate "zap").trans ?_, (days "sun").trans ?_, (days "sunday").trans ?_,
    units "h" .hour hour single⟩ <;> decide +kernel

/-- A word under two units is counted by the last language. -/
example :
    let t := (Table.empty.insert "xx" "week" "w").insert "yy" "year" "w"
    (ofTable t ["xx", "yy"]).units.lookup "w" = some .year ∧
      (ofTable t ["yy", "xx"]).units.lookup "w" = some .week := by decide +kernel

end Vocabulary

end DatePhrase
