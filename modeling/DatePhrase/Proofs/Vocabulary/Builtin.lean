import DatePhrase.Proofs.Text.Folded
import DatePhrase.Proofs.Vocabulary.Overlays
import DatePhrase.Proofs.Vocabulary.Words
import DatePhrase.Vocabulary.Builtin

/-! The words of the vocabulary at hand, read off the lists that it is made of. Each word stands
there as the recognizers know it, in letters that neither lower case nor case folding changes,
without digits and without blanks at its ends; so what words have to do with each other is decided
on those lists. -/
namespace DatePhrase
open Text Calendar

theorem lookup_cons_ite {α : Type} (key sought : String) (value : α)
    (entries : List (String × α)) : ((key, value) :: entries).lookup sought =
      if sought = key then some value else entries.lookup sought := by
  rw [List.lookup_cons]
  by_cases same : sought = key
  · simp [same]
  · simp [beq_eq_false_iff_ne.2 same, same]

namespace Table

/-- Of entries inserted one after another the last one with a key counts. -/
theorem entry?_foldl_insert (t : Table) (language sought other : String)
    (entries : List (String × String)) :
    Table.entry? (entries.foldl (fun t (key, value) => t.insert language key value) t) sought
        other =
      if other = language then (entries.reverse.lookup sought).or (t.entry? sought other)
      else t.entry? sought other := by
  induction entries generalizing t with
  | nil => simp
  | cons entry entries ih =>
    obtain ⟨key, value⟩ := entry
    rw [List.foldl_cons, ih, entry?_insert, List.reverse_cons, List.lookup_append]
    by_cases same : other = language <;> by_cases own : sought = key <;>
      simp [same, own]

end Table

namespace Vocabulary

/-- The codes of the languages at hand. -/
def builtinCodes : List String := builtinLanguages.map (·.1)

theorem entry?_builtin (key language : String) : Table.builtin.entry? key language =
    (builtinLanguages.lookup language).bind (·.reverse.lookup key) := by
  simp only [Table.builtin, builtinLanguages, List.foldl_cons, List.foldl_nil,
    Table.entry?_foldl_insert]
  have empty : Table.empty.entry? key language = none := rfl
  simp only [empty, Option.or_none, lookup_cons_ite, List.lookup_nil]
  split_ifs with ja nl pt de fr en <;> simp_all

/-- The words under a key of a language at hand, as they are written there. -/
def spellings (language key : String) : List (List Char) :=
  (((builtinLanguages.lookup language).bind (·.reverse.lookup key)).map
    (·.toList.splitOn '|')).getD []

/-- The code points of the characters in the words at hand, the letters a to z left aside. -/
def rareCodes : List Nat :=
  [32, 39, 45, 46, 47, 64, 0xaa, 0xba, 0xe0, 0xe1, 0xe3, 0xe4, 0xe7, 0xe8, 0xe9, 0xea, 0xed, 0xf3,
    0xf4, 0xf5, 0xf6, 0xfa, 0xfc, 0x3042, 0x3044, 0x3046, 0x304b, 0x304d, 0x3057, 0x305f, 0x306e,
    0x307e, 0x3087, 0x30f6, 0x4eca, 0x5148, 0x5206, 0x524d, 0x571f, 0x5e74, 0x6628, 0x65e5, 0x660e,
    0x6642, 0x66dc, 0x6708, 0x6728, 0x6765, 0x6b21, 0x6c34, 0x706b, 0x9031, 0x91d1, 0x9593]

/-- A character of the words at hand. -/
def Plain (c : Char) : Prop := 97 ≤ c.toNat ∧ c.toNat ≤ 122 ∨ c.toNat ∈ rareCodes

instance (c : Char) : Decidable (Plain c) := inferInstanceAs (Decidable (_ ∨ _))

theorem of_plain {P : Char → Prop} (letters : ∀ n < 123, 97 ≤ n → P (Char.ofNat n))
    (rare : ∀ n ∈ rareCodes, P (Char.ofNat n)) {c : Char} (plain : Plain c) : P c := by
  rw [← Char.ofNat_toNat c]
  rcases plain with ⟨lower, upper⟩ | listed
  · exact letters _ (by omega) lower
  · exact rare _ listed

theorem folded_of_plain {c : Char} (plain : Plain c) : Folded c :=
  of_plain (by decide +kernel) (by decide +kernel) plain

theorem undigited_of_plain {c : Char} (plain : Plain c) : isDigit c = false :=
  of_plain (P := fun c => isDigit c = false) (by decide +kernel) (by decide +kernel) plain

theorem solid_of_plain {c : Char} (plain : Plain c) : c ≠ ' ' → isBlank c = false :=
  of_plain (P := fun c => c ≠ ' ' → isBlank c = false) (by decide +kernel) (by decide +kernel) plain

theorem plain_entries : ∀ l ∈ builtinLanguages, ∀ e ∈ l.2, trimBlanks e.2.toList ≠ [] ∧
    ∀ part ∈ e.2.toList.splitOn '|',
      part ≠ [] ∧ part.head? ≠ some ' ' ∧ part.getLast? ≠ some ' ' ∧ ∀ c ∈ part, Plain c := by
  decide +kernel

/-- Where the value of a key is written in normal form, its parts are the synonyms. -/
theorem splitSynonyms_eq {value : String} (parts : ∀ part ∈ value.toList.splitOn '|',
    part ≠ [] ∧ Stops isBlank part ∧ Tight part) :
    splitSynonyms value = (value.toList.splitOn '|').map String.ofList := by
  have trimmed : (value.toList.splitOn '|').map (fun part => String.ofList (trimBlanks part)) =
      (value.toList.splitOn '|').map String.ofList := by
    apply List.map_congr_left
    intro part listed
    obtain ⟨-, stops, tight⟩ := parts part listed
    rw [trimBlanks_eq_self stops tight]
  rw [splitSynonyms, trimmed, List.filter_eq_self]
  intro w listed
  obtain ⟨part, known, rfl⟩ := List.mem_map.1 listed
  simp [(parts part known).1]

theorem solid_ends {part : List Char} (plain : ∀ c ∈ part, Plain c) (first : part.head? ≠ some ' ')
    (last : part.getLast? ≠ some ' ') : Stops isBlank part ∧ Tight part := by
  constructor
  · intro c hc
    exact solid_of_plain (plain c (List.mem_of_mem_head? hc)) fun same => first (same ▸ hc)
  · intro c hc
    exact solid_of_plain (plain c (List.mem_of_mem_getLast? hc)) fun same => last (same ▸ hc)

theorem mem_synonyms_builtin {w language key : String} :
    w ∈ Table.builtin.synonyms key language ↔ w.toList ∈ spellings language key := by
  rw [spellings, Table.synonyms, Table.lookup?, entry?_builtin]
  cases found : (builtinLanguages.lookup language).bind (·.reverse.lookup key) with
  | none => simp
  | some value =>
    obtain ⟨entries, known, entry⟩ := Option.bind_eq_some_iff.1 found
    obtain ⟨filled, parts⟩ := plain_entries _ (mem_of_lookup known) _
      (List.mem_reverse.1 (mem_of_lookup entry))
    have normal : splitSynonyms value = (value.toList.splitOn '|').map String.ofList :=
      splitSynonyms_eq fun part listed => by
        obtain ⟨nonempty, first, last, plain⟩ := parts part listed
        exact ⟨nonempty, solid_ends plain first last⟩
    have kept : (some value).filter (fun v => trim v ≠ "") = some value := by
      simp [Option.filter_some, trim, filled]
    rw [kept, Option.map_some, Option.getD_some, normal, Option.map_some, Option.getD_some,
      List.mem_map]
    constructor
    · rintro ⟨part, listed, rfl⟩
      rwa [String.toList_ofList]
    · exact fun listed => ⟨w.toList, listed, String.ofList_toList⟩

variable {language key : String} {part : List Char}

theorem plain_of_mem_spellings (h : part ∈ spellings language key) :
    (part ≠ [] ∧ Stops isBlank part ∧ Tight part) ∧ ∀ c ∈ part, Plain c := by
  unfold spellings at h
  cases found : (builtinLanguages.lookup language).bind (·.reverse.lookup key) with
  | none => simp [found] at h
  | some value =>
    obtain ⟨entries, known, entry⟩ := Option.bind_eq_some_iff.1 found
    rw [found] at h
    obtain ⟨nonempty, first, last, plain⟩ := (plain_entries _ (mem_of_lookup known) _
      (List.mem_reverse.1 (mem_of_lookup entry))).2 part h
    exact ⟨⟨nonempty, solid_ends plain first last⟩, plain⟩

theorem folded_of_mem_spellings (h : part ∈ spellings language key) : AllFolded part :=
  fun c hc => folded_of_plain ((plain_of_mem_spellings h).2 c hc)

theorem undigited_of_mem_spellings (h : part ∈ spellings language key) :
    ∀ c ∈ part, isDigit c = false :=
  fun c hc => undigited_of_plain ((plain_of_mem_spellings h).2 c hc)

theorem undigited_builtin : Table.builtin.Undigited :=
  fun _ _ _ listed => undigited_of_mem_spellings (mem_synonyms_builtin.1 listed)

/-- The words at hand are the ones written. -/
theorem mem_words_builtin {w : String} :
    w ∈ Table.builtin.words [language] key ↔ w.toList ∈ spellings language key := by
  have lowered : ∀ q ∈ Table.builtin.synonyms key language, lower q = q := by
    intro q listed
    rw [lower, lowerChars_of_folded (folded_of_mem_spellings (mem_synonyms_builtin.1 listed)),
      String.ofList_toList]
  rw [Table.words, List.flatMap_singleton, List.map_congr_left lowered, List.map_id',
    mem_synonyms_builtin]

variable {languages : List String} {w : String}

theorem folded_of_mem_words (listed : w ∈ Table.builtin.words languages key) :
    AllFolded w.toList := by
  obtain ⟨l, -, h⟩ := Table.mem_words_iff.1 listed
  exact folded_of_mem_spellings (mem_words_builtin.1 h)

theorem exists_spelling (known : ∀ l ∈ languages, l ∈ builtinCodes)
    (listed : w ∈ Table.builtin.words languages key) :
    ∃ l ∈ builtinCodes, w.toList ∈ spellings l key := by
  obtain ⟨l, member, h⟩ := Table.mem_words_iff.1 listed
  exact ⟨l, known l member, mem_words_builtin.1 h⟩

theorem hasLanguage_builtin (known : language ∈ builtinCodes) :
    Table.builtin.hasLanguage language := by
  have each : ∀ l ∈ builtinCodes,
      ((builtinLanguages.lookup l).bind (·.reverse.lookup "now")).isSome := by
    decide +kernel
  have entry := each language known
  rw [← entry?_builtin, Table.entry?] at entry
  exact Option.isSome_of_isSome_bind entry

end Vocabulary

end DatePhrase
