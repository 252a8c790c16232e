import DatePhrase.Proofs.Text.Numerals
import DatePhrase.Proofs.Vocabulary.Repetitions
import DatePhrase.Vocabulary.Words

/-! What a compiled vocabulary holds. A word of a table is never empty and has no blank at either
end; each list of words has the words of its keys and no others, every word that chooses a week is
classified, and every day or unit word has an entry in its table. -/
namespace DatePhrase
open Text Calendar

theorem mem_of_lookup {α : Type} {sought : String} {value : α} {entries : List (String × α)}
    (h : entries.lookup sought = some value) : (sought, value) ∈ entries := by
  obtain ⟨before, after, rfl, -⟩ := List.lookup_eq_some_iff.1 h
  simp

/-- An entry is found under its key when all entries of the key have its value. -/
theorem lookup_of_unique {α : Type} {sought : String} {value : α} {entries : List (String × α)}
    (found : (sought, value) ∈ entries)
    (only : ∀ other, (sought, other) ∈ entries → other = value) :
    entries.lookup sought = some value := by
  have known : (entries.lookup sought).isSome :=
    List.lookup_isSome_iff.2 ⟨(sought, value), found, beq_self_eq_true sought⟩
  obtain ⟨first, entry⟩ := Option.isSome_iff_exists.1 known
  rw [entry, only first (mem_of_lookup entry)]

theorem Calendar.Weekday.mem_all (w : Weekday) : w ∈ Weekday.all := by cases w <;> decide

theorem Calendar.TimeUnit.mem_all (u : TimeUnit) : u ∈ TimeUnit.all := by cases u <;> decide

theorem Immediate.mem_all (i : Immediate) : i ∈ Immediate.all := by cases i <;> decide

theorem tight_of_mem_splitSynonyms {value w : String} (h : w ∈ splitSynonyms value) :
    Tight w.toList := by
  simp only [splitSynonyms, List.mem_filter, List.mem_map] at h
  obtain ⟨⟨part, -, rfl⟩, -⟩ := h
  rw [String.toList_ofList]
  exact tight_trimEnd _

theorem stops_of_mem_splitSynonyms {value w : String} (h : w ∈ splitSynonyms value) :
    Stops isBlank w.toList := by
  simp only [splitSynonyms, List.mem_filter, List.mem_map] at h
  obtain ⟨⟨part, -, rfl⟩, -⟩ := h
  rw [String.toList_ofList]
  exact stops_trimBlanks _

theorem ne_empty_of_mem_splitSynonyms {value w : String} (h : w ∈ splitSynonyms value) :
    w ≠ "" := by
  simpa using (List.mem_filter.1 h).2

namespace Table
variable {t : Table} {languages : List String} {key w : String}

theorem exists_of_mem_words (h : w ∈ t.words languages key) :
    ∃ value, ∃ q ∈ splitSynonyms value, w = lower q := by
  simp only [words, List.mem_map, List.mem_flatMap] at h
  obtain ⟨q, ⟨language, -, hq⟩, rfl⟩ := h
  unfold synonyms at hq
  cases entry : t.lookup? key language with
  | none => simp [entry] at hq
  | some value => exact ⟨value, q, by simpa [entry] using hq, rfl⟩

theorem ne_empty_of_mem_words (h : w ∈ t.words languages key) : w ≠ "" := by
  obtain ⟨value, q, hq, rfl⟩ := exists_of_mem_words h
  exact lower_ne_empty (ne_empty_of_mem_splitSynonyms hq)

theorem tight_of_mem_words (h : w ∈ t.words languages key) : Tight w.toList := by
  obtain ⟨value, q, hq, rfl⟩ := exists_of_mem_words h
  rw [lower, String.toList_ofList]
  exact tight_lowerFrom (tight_of_mem_splitSynonyms hq) []

theorem stops_of_mem_words (h : w ∈ t.words languages key) : Stops isBlank w.toList := by
  obtain ⟨value, q, hq, rfl⟩ := exists_of_mem_words h
  rw [lower, String.toList_ofList]
  exact stops_lowerFrom neverMade_blank (stops_of_mem_splitSynonyms hq) []

theorem stops_word {s : List Char} (h : w ∈ t.words languages key) :
    Stops isBlank (w.toList ++ s) :=
  (stops_append (by simpa using ne_empty_of_mem_words h)).2 (stops_of_mem_words h)

/-- The words of a list of languages are those of each. -/
theorem mem_words_iff :
    w ∈ t.words languages key ↔ ∃ language ∈ languages, w ∈ t.words [language] key := by
  simp only [words, List.mem_map, List.mem_flatMap, List.mem_singleton, exists_eq_left]
  constructor
  · rintro ⟨q, ⟨language, listed, hq⟩, rfl⟩
    exact ⟨language, listed, q, hq, rfl⟩
  · rintro ⟨language, listed, q, hq, rfl⟩
    exact ⟨q, ⟨language, listed, hq⟩, rfl⟩

/-- Words keep clear of a class of characters that lower case does not make. -/
theorem clear_of_mem_words {p : Char → Bool} (never : NeverMade p)
    (clear : ∀ language ∈ languages, ∀ q ∈ t.synonyms key language, ∀ c ∈ q.toList, p c = false)
    (h : w ∈ t.words languages key) : ∀ c ∈ w.toList, p c = false := by
  simp only [words, List.mem_map, List.mem_flatMap] at h
  obtain ⟨q, ⟨language, listed, hq⟩, rfl⟩ := h
  intro d hd
  rw [lower, String.toList_ofList] at hd
  obtain ⟨c, hc, before, after, made⟩ := exists_of_mem_lowerFrom hd
  cases own : p d with
  | false => rfl
  | true =>
    have kept := never before after c d made own
    rw [clear language listed q hq c hc] at kept
    exact kept.symm

/-- No word of the table has a decimal digit. -/
def Undigited (t : Table) : Prop :=
  ∀ key language, ∀ w ∈ t.synonyms key language, ∀ c ∈ w.toList, isDigit c = false

theorem Undigited.clear (undigited : t.Undigited) (h : w ∈ t.words languages key) :
    ∀ c ∈ w.toList, isDigit c = false :=
  clear_of_mem_words neverMade_digit (fun language _ => undigited key language) h

end Table

namespace Vocabulary
variable {t : Table} {languages : List String} {w : String}

theorem precedes_iff {a b : String} :
    precedes a b ↔ b.length < a.length ∨ a.length = b.length ∧ a ≤ b := by
  simp [precedes]

theorem precedes_trans (a b c : String) : precedes a b → precedes b c → precedes a c := by
  simp only [precedes_iff]
  rintro (shorter | ⟨same, before⟩) (shorter' | ⟨same', before'⟩)
  · exact .inl (by omega)
  · exact .inl (by omega)
  · exact .inl (by omega)
  · exact .inr ⟨by omega, String.le_trans before before'⟩

theorem precedes_total (a b : String) : precedes a b || precedes b a := by
  rw [Bool.or_eq_true, precedes_iff, precedes_iff]
  rcases String.le_total a b with before | before <;> grind

theorem precedes_antisymm {a b : String} (there : precedes a b) (back : precedes b a) : a = b := by
  rw [precedes_iff] at there back
  rcases there with shorter | ⟨same, before⟩
  · omega
  · rcases back with shorter | ⟨-, behind⟩
    · omega
    · exact String.le_antisymm before behind

theorem pairwise_precedes_arrange (words : List String) :
    (arrange words).Pairwise fun v w => precedes v w :=
  List.pairwise_mergeSort precedes_trans precedes_total _

/-- Longer words are tried first. -/
theorem pairwise_arrange (words : List String) :
    (arrange words).Pairwise fun v w => w.length ≤ v.length := by
  refine (pairwise_precedes_arrange words).imp fun {v w} before => ?_
  rw [precedes_iff] at before
  omega

theorem nodup_arrange (words : List String) : (arrange words).Nodup :=
  (List.mergeSort_perm _ _).nodup_iff.2 (nodup_eraseDups _)

/-- The arranged words are the only list of the nonempty words that is in order and has each of them
once. -/
theorem arrange_eq_of_ordered {words others : List String}
    (ordered : others.Pairwise fun v w => precedes v w ∧ v ≠ w)
    (same : ∀ w, w ∈ others ↔ w ∈ words ∧ w ≠ "") : arrange words = others := by
  refine List.Perm.eq_of_pairwise (fun _ _ _ _ => precedes_antisymm)
    (pairwise_precedes_arrange words) (ordered.imp And.left) ?_
  rw [List.perm_ext_iff_of_nodup (nodup_arrange words) (ordered.imp And.right)]
  intro w
  rw [mem_arrange, same]

/-- Word lists are arranged alike just when they have the same nonempty words. -/
theorem arrange_eq_iff {words others : List String} :
    arrange words = arrange others ↔ ∀ w, w ≠ "" → (w ∈ words ↔ w ∈ others) := by
  constructor
  · intro same w nonempty
    have listed : w ∈ arrange words ↔ w ∈ arrange others := by rw [same]
    simpa only [mem_arrange, nonempty, ne_eq, not_false_eq_true, and_true] using listed
  · intro same
    refine arrange_eq_of_ordered ((pairwise_precedes_arrange others).and (nodup_arrange others))
      fun w => ?_
    rw [mem_arrange]
    exact and_congr_left fun nonempty => (same w nonempty).symm

/-- The order in which words are tried depends on the words alone, not on how often or in which
order they were listed. -/
theorem arrange_congr {words others : List String} (same : ∀ w, w ∈ words ↔ w ∈ others) :
    arrange words = arrange others :=
  arrange_eq_iff.2 fun w _ => same w

theorem mem_arrange_words {key : String} :
    w ∈ arrange (t.words languages key) ↔ w ∈ t.words languages key := by
  rw [mem_arrange]
  exact ⟨And.left, fun h => ⟨h, Table.ne_empty_of_mem_words h⟩⟩

theorem mem_meanings {α : Type} {words : α → List String} {all : List α} {a : α} :
    (w, a) ∈ meanings words all ↔ a ∈ all ∧ w ∈ words a := by
  simp only [meanings, List.mem_flatMap, List.mem_map, Prod.mk.injEq]
  constructor
  · rintro ⟨b, listed, _, h, rfl, rfl⟩
    exact ⟨listed, h⟩
  · rintro ⟨listed, h⟩
    exact ⟨a, listed, w, h, rfl, rfl⟩

theorem lookup_map_pair {α : Type} (words : List String) (a : α) (w : String) :
    (words.map (·, a)).lookup w = if w ∈ words then some a else none := by
  induction words with
  | nil => rfl
  | cons v rest ih =>
    rw [List.map_cons, List.lookup_cons, ih]
    by_cases same : w = v
    · simp [same]
    · simp [same, beq_false_of_ne same]

/-- A word has the first of the meanings that list it. -/
theorem lookup_meanings {α : Type} (words : α → List String) (all : List α) (w : String) :
    (meanings words all).lookup w = all.find? (w ∈ words ·) := by
  induction all with
  | nil => rfl
  | cons a rest ih =>
    rw [meanings, List.flatMap_cons, List.lookup_append, lookup_map_pair, ← meanings, ih,
      List.find?_cons]
    by_cases listed : w ∈ words a <;> simp [listed]

/-- Read from behind, a word has the last of the meanings that list it. -/
theorem lookup_reverse_meanings {α : Type} (words : α → List String) (all : List α) (w : String) :
    (meanings words all).reverse.lookup w = all.reverse.find? (w ∈ words ·) := by
  have turned : (meanings words all).reverse =
      meanings (fun a => (words a).reverse) all.reverse := by
    simp only [meanings, List.reverse_flatMap, List.map_reverse, Function.comp_def]
  rw [turned, lookup_meanings]
  simp only [List.mem_reverse]

theorem mem_choiceWords :
    w ∈ choiceWords t languages ↔ ∃ week : WeekChoice, w ∈ t.words languages week.name := by
  simp only [choiceWords, List.mem_append]
  constructor
  · rintro ((h | h) | h)
    · exact ⟨.current, h⟩
    · exact ⟨.following, h⟩
    · exact ⟨.preceding, h⟩
  · rintro ⟨week, h⟩
    cases week with
    | current => exact .inl (.inl h)
    | following => exact .inl (.inr h)
    | preceding => exact .inr h

theorem mem_spacedChoices : w ∈ (ofTable t languages).spacedChoices ↔
    (∃ week : WeekChoice, w ∈ t.words languages week.name) ∧ endsUnspaced w = false := by
  simp only [ofTable, mem_arrange, spacedWords, List.mem_filter, mem_choiceWords, Bool.not_eq_true']
  constructor
  · exact And.left
  · rintro ⟨⟨week, h⟩, spaced⟩
    exact ⟨⟨⟨week, h⟩, spaced⟩, Table.ne_empty_of_mem_words h⟩

theorem mem_touchingChoices : w ∈ (ofTable t languages).touchingChoices ↔
    (∃ week : WeekChoice, w ∈ t.words languages week.name) ∧ endsUnspaced w := by
  simp only [ofTable, mem_arrange, touchingWords, List.mem_filter, mem_choiceWords]
  constructor
  · exact And.left
  · rintro ⟨⟨week, h⟩, touching⟩
    exact ⟨⟨⟨week, h⟩, touching⟩, Table.ne_empty_of_mem_words h⟩

theorem mem_dayMeanings {day : Weekday} :
    (w, day) ∈ dayMeanings t languages ↔ w ∈ t.words languages day.name := by
  simp only [dayMeanings, mem_meanings, Weekday.mem_all, true_and]

theorem mem_days_ofTable {day : Weekday} : (w, day) ∈ (ofTable t languages).days ↔
    w ∈ t.words languages day.name ∨ (w, day) ∈ baseDays := by
  simp only [ofTable, List.mem_append, List.mem_reverse, mem_dayMeanings]

theorem mem_dayWords : w ∈ (ofTable t languages).dayWords ↔
    ∃ day : Weekday, w ∈ t.words languages day.name := by
  simp only [ofTable, mem_arrange, List.mem_map, Prod.exists, exists_and_right, exists_eq_right,
    mem_dayMeanings]
  constructor
  · exact And.left
  · rintro ⟨day, h⟩
    exact ⟨⟨day, h⟩, Table.ne_empty_of_mem_words h⟩

theorem mem_unitMeanings {unit : TimeUnit} :
    (w, unit) ∈ unitMeanings t languages ↔ w ∈ t.words languages unit.name := by
  rw [Table.mem_words_iff]
  simp only [unitMeanings, List.mem_flatMap, mem_meanings, TimeUnit.mem_all, true_and]

theorem mem_units_ofTable {unit : TimeUnit} :
    (w, unit) ∈ (ofTable t languages).units ↔ w ∈ t.words languages unit.name := by
  simp only [ofTable, List.mem_reverse, mem_unitMeanings]

theorem mem_immediate_ofTable {i : Immediate} :
    (w, i) ∈ (ofTable t languages).immediate ↔ w ∈ t.words languages i.name := by
  simp only [ofTable, mem_meanings, Immediate.mem_all, true_and]

theorem mem_unitWords : w ∈ (ofTable t languages).unitWords ↔
    ∃ unit : TimeUnit, w ∈ t.words languages unit.name := by
  simp only [ofTable, mem_arrange, List.mem_map, Prod.exists, exists_and_right, exists_eq_right,
    mem_unitMeanings]
  constructor
  · exact And.left
  · rintro ⟨unit, h⟩
    exact ⟨⟨unit, h⟩, Table.ne_empty_of_mem_words h⟩

/-- An immediate word has the first meaning that lists it, from now to yesterday. -/
theorem lookup_immediate_ofTable (w : String) : (ofTable t languages).immediate.lookup w =
    Immediate.all.find? (w ∈ t.words languages ·.name) :=
  lookup_meanings (fun i : Immediate => t.words languages i.name) _ w

/-- A day name has the last weekday that lists it, from Sunday to Saturday, and if there is none,
the weekday that it names in English. -/
theorem lookup_days_ofTable (w : String) : (ofTable t languages).days.lookup w =
    (Weekday.all.reverse.find? (w ∈ t.words languages ·.name)).or (baseDays.lookup w) := by
  rw [ofTable, List.lookup_append, dayMeanings, lookup_reverse_meanings]

/-- A word that stands under one unit is counted in this unit. -/
theorem lookup_units_ofTable {unit : TimeUnit} (listed : w ∈ t.words languages unit.name)
    (single : ∀ other : TimeUnit, w ∈ t.words languages other.name → other = unit) :
    (ofTable t languages).units.lookup w = some unit :=
  lookup_of_unique (mem_units_ofTable.2 listed) fun other entry =>
    single other (mem_units_ofTable.1 entry)

/-- A text with a digit is no day word. -/
theorem lookup_immediate_of_digit (undigited : t.Undigited) {c : Char} (inside : c ∈ w.toList)
    (digit : isDigit c) : (ofTable t languages).immediate.lookup w = none := by
  cases found : (ofTable t languages).immediate.lookup w with
  | none => rfl
  | some i =>
    rw [undigited.clear (mem_immediate_ofTable.1 (mem_of_lookup found)) c inside] at digit
    cases digit

/-- A word that chooses a week is classified. -/
theorem exists_choice? {week : WeekChoice} (h : w ∈ t.words languages week.name) :
    ∃ chosen, (ofTable t languages).choice? w = some chosen := by
  have listed : w ∈ (ofTable t languages).current ∨ w ∈ (ofTable t languages).following ∨
      w ∈ (ofTable t languages).preceding := by
    simp only [ofTable, mem_arrange_words]
    cases week with
    | current => exact .inl h
    | following => exact .inr (.inl h)
    | preceding => exact .inr (.inr h)
  unfold choice?
  split
  · exact ⟨_, rfl⟩
  · split
    · exact ⟨_, rfl⟩
    · rename_i not_current not_following
      have last := (listed.resolve_left not_current).resolve_left not_following
      exact ⟨_, if_pos last⟩

/-- A word is classified by one of its keys. -/
theorem mem_words_of_choice? {week : WeekChoice}
    (h : (ofTable t languages).choice? w = some week) : w ∈ t.words languages week.name := by
  unfold choice? at h
  simp only [ofTable, mem_arrange_words] at h
  split_ifs at h with current following preceding
  · exact Option.some.inj h ▸ current
  · exact Option.some.inj h ▸ following
  · exact Option.some.inj h ▸ preceding

/-- The day table has every day word. -/
theorem exists_day {day : Weekday} (h : w ∈ t.words languages day.name) :
    ∃ known, (ofTable t languages).days.lookup w = some known := by
  apply Option.isSome_iff_exists.1
  rw [List.lookup_isSome_iff]
  exact ⟨(w, day), by simp [ofTable, mem_dayMeanings, h], by simp⟩

/-- The unit table has every unit word. -/
theorem exists_unit {unit : TimeUnit} (h : w ∈ t.words languages unit.name) :
    ∃ known, (ofTable t languages).units.lookup w = some known := by
  apply Option.isSome_iff_exists.1
  rw [List.lookup_isSome_iff]
  exact ⟨(w, unit), by simp [ofTable, mem_unitMeanings, h], by simp⟩

end Vocabulary

end DatePhrase
