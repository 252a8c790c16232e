import DatePhrase.Vocabulary.Table

/-! Vocabulary tables laid over each other. A table is what it answers: which languages it has and
which entry stands under a key of a language. Of two tables laid over each other the later one
answers wherever it has an entry, were it a blank one. Main statement: laying over is associative,
a second time changes nothing, and inserting the entries one by one in any order does the same. -/
namespace DatePhrase
open Text

namespace Keyed
variable {α : Type} {key sought : String} {value : α}

theorem mem_of_find? {entries : List (String × α)} (found : find? sought entries = some value) :
    (sought, value) ∈ entries := by
  induction entries with
  | nil => cases found
  | cons entry rest ih =>
    obtain ⟨key, first⟩ := entry
    rw [find?] at found
    split at found
    · rename_i same
      rw [← same, ← Option.some.inj found]
      exact List.mem_cons_self
    · exact List.mem_cons_of_mem _ (ih found)

theorem find?_of_mem {entries : List (String × α)}
    (ascending : entries.Pairwise fun a b => a.1 < b.1) (listed : (key, value) ∈ entries) :
    find? key entries = some value := by
  induction entries with
  | nil => cases listed
  | cons entry rest ih =>
    obtain ⟨first, later⟩ := List.pairwise_cons.1 ascending
    rcases List.mem_cons.1 listed with rfl | behind
    · exact if_pos rfl
    · have apart : entry.1 ≠ key := fun same => String.lt_irrefl _ (same ▸ first _ behind)
      rw [find?, if_neg apart]
      exact ih later behind

theorem eq_empty {m : Keyed α} (none : m.entries = []) : m = .empty := by
  cases m
  cases none
  rfl

/-- A map has an entry for each of its answers. -/
theorem mem_entries_iff {m : Keyed α} : (key, value) ∈ m.entries ↔ m.get? key = some value :=
  ⟨find?_of_mem m.ascending, mem_of_find?⟩

/-- Entries taken over one after another are all there at the end, if each of them counts under its
own key alone. -/
theorem shown_foldl {σ β : Type} {entries : List (String × α)} {step : σ → String × α → σ}
    (shown : σ → Option β) (answer : α → Option β)
    (shows : ∀ s entry, shown (step s entry) =
      if sought = entry.1 then (answer entry.2).or (shown s) else shown s)
    (ascending : entries.Pairwise fun a b => a.1 < b.1) (s : σ) :
    shown (entries.foldl step s) = ((find? sought entries).bind answer).or (shown s) := by
  induction entries generalizing s with
  | nil => rfl
  | cons entry rest ih =>
    obtain ⟨first, later⟩ := List.pairwise_cons.1 ascending
    rw [List.foldl_cons, ih later, shows, find?]
    by_cases same : sought = entry.1
    · rw [find?_eq_none fun other behind => same ▸ first other behind]
      simp [same]
    · simp [same, Ne.symm same]

theorem get?_extend (m n : Keyed α) :
    (m.extend n).get? sought = (n.get? sought).or (m.get? sought) := by
  have all := shown_foldl (·.get? sought) some (fun m entry => get?_put m entry.1 sought entry.2)
    n.ascending m
  rwa [Option.bind_fun_some] at all

end Keyed

namespace Table
variable {a b t : Table} {key language value other sought : String}

/-- A table is what it answers. -/
theorem eq_of_answers (languages : ∀ language, a.hasLanguage language = b.hasLanguage language)
    (entries : ∀ key language, a.entry? key language = b.entry? key language) : a = b := by
  obtain ⟨as⟩ := a
  obtain ⟨bs⟩ := b
  refine congrArg mk (Keyed.ext fun language => ?_)
  have known := languages language
  have answers (key : String) :
      (as.get? language).bind (·.get? key) = (bs.get? language).bind (·.get? key) :=
    entries key language
  simp only [hasLanguage] at known
  cases inA : as.get? language with
  | none =>
    rw [inA] at known
    exact (Option.isNone_iff_eq_none.1 (by simpa using known.symm)).symm
  | some x =>
    rw [inA] at known
    obtain ⟨y, inB⟩ := Option.isSome_iff_exists.1 known.symm
    rw [inB]
    refine congrArg some (Keyed.ext fun key => ?_)
    simpa [inA, inB] using answers key

theorem hasLanguage_overlay (entries : Keyed String) :
    (t.overlay language entries).hasLanguage other ↔ other = language ∨ t.hasLanguage other := by
  rw [hasLanguage, overlay, Keyed.get?_put]
  by_cases same : other = language <;> simp [same, hasLanguage]

/-- Entries laid over those of a language answer for it, and all else stays as it was. -/
theorem entry?_overlay (entries : Keyed String) :
    Table.entry? (t.overlay language entries) sought other =
      if other = language then (entries.get? sought).or (t.entry? sought other)
      else t.entry? sought other := by
  simp only [Table.entry?, overlay, Keyed.get?_put]
  by_cases same : other = language
  · subst same
    simp only [if_true, Option.bind_some, Keyed.get?_extend]
    cases t.languages.get? other <;> rfl
  · simp only [same, if_false]

theorem entry?_insert (t : Table) (language key value sought other : String) :
    Table.entry? (t.insert language key value) sought other =
      if other = language ∧ sought = key then some value else t.entry? sought other := by
  rw [insert, entry?_overlay, Keyed.get?_put]
  by_cases same : other = language <;> by_cases own : sought = key <;>
    simp [same, own, Keyed.get?, Keyed.empty, Keyed.find?]

theorem hasLanguage_foldl_overlay (languages : List (String × Keyed String)) (t : Table) :
    (languages.foldl (fun t entry => t.overlay entry.1 entry.2) t).hasLanguage language ↔
      (Keyed.find? language languages).isSome ∨ t.hasLanguage language := by
  induction languages generalizing t with
  | nil => simp [Keyed.find?]
  | cons entry rest ih =>
    rw [List.foldl_cons, ih, hasLanguage_overlay, Keyed.find?]
    by_cases same : entry.1 = language
    · simp [same]
    · simp [same, Ne.symm same]

/-- The later table answers where it has an entry. -/
theorem entry?_merge (a b : Table) (key language : String) :
    Table.entry? (a.merge b) key language = (b.entry? key language).or (a.entry? key language) :=
  Keyed.shown_foldl (fun t => Table.entry? t key language) (Keyed.get? · key)
    (fun _ entry => entry?_overlay entry.2) b.languages.ascending a

theorem hasLanguage_merge (a b : Table) (language : String) :
    (a.merge b).hasLanguage language ↔ a.hasLanguage language ∨ b.hasLanguage language :=
  (hasLanguage_foldl_overlay b.languages.entries a).trans or_comm

theorem merge_assoc (a b c : Table) : (a.merge b).merge c = a.merge (b.merge c) := by
  refine eq_of_answers (fun language => Bool.eq_iff_iff.2 ?_) fun key language => ?_
  · simp only [hasLanguage_merge, or_assoc]
  · simp only [entry?_merge, Option.or_assoc]

theorem merge_merge_self (a b : Table) : (a.merge b).merge b = a.merge b := by
  refine eq_of_answers (fun language => Bool.eq_iff_iff.2 ?_) fun key language => ?_
  · simp only [hasLanguage_merge, or_assoc, or_self]
  · simp only [entry?_merge, ← Option.or_assoc, Option.or_self]

/-- All entries of a table with their languages and keys. -/
def listing (t : Table) : List (String × String × String) :=
  t.languages.entries.flatMap fun entries => entries.2.entries.map fun entry => (entries.1, entry)

/-- Inserts entries one by one. -/
def insertAll (t : Table) (entries : List (String × String × String)) : Table :=
  entries.foldl (fun t entry => t.insert entry.1 entry.2.1 entry.2.2) t

theorem mem_listing_iff : (language, key, value) ∈ t.listing ↔
    t.entry? key language = some value := by
  simp only [listing, List.mem_flatMap, List.mem_map, Prod.mk.injEq, Prod.exists, entry?,
    Option.bind_eq_some_iff, ← Keyed.mem_entries_iff]
  constructor
  · rintro ⟨_, entries, listed, _, _, entry, rfl, rfl, rfl⟩
    exact ⟨entries, listed, entry⟩
  · rintro ⟨entries, listed, entry⟩
    exact ⟨language, entries, listed, key, value, entry, rfl, rfl, rfl⟩

/-- Where no language is without entries, the languages are those of the entries. -/
theorem hasLanguage_iff_listing (full : ∀ entries ∈ t.languages.entries, entries.2 ≠ .empty) :
    t.hasLanguage language ↔ ∃ entry ∈ t.listing, entry.1 = language := by
  rw [hasLanguage, Option.isSome_iff_exists]
  simp only [← Keyed.mem_entries_iff, listing, List.mem_flatMap, List.mem_map]
  constructor
  · rintro ⟨entries, listed⟩
    have nonempty : entries.entries ≠ [] := fun none => full _ listed (Keyed.eq_empty none)
    obtain ⟨entry, others, first⟩ := List.exists_cons_of_ne_nil nonempty
    exact ⟨(language, entry), ⟨_, listed, entry, by simp [first], rfl⟩, rfl⟩
  · rintro ⟨_, ⟨entries, listed, entry, -, rfl⟩, rfl⟩
    exact ⟨entries.2, listed⟩

theorem hasLanguage_insertAll (entries : List (String × String × String)) (t : Table) :
    (t.insertAll entries).hasLanguage language ↔
      (∃ entry ∈ entries, entry.1 = language) ∨ t.hasLanguage language := by
  induction entries generalizing t with
  | nil => simp [insertAll]
  | cons entry rest ih =>
    rw [insertAll, List.foldl_cons, ← insertAll, ih, insert, hasLanguage_overlay]
    simp only [List.mem_cons, exists_eq_or_imp, eq_comm (a := language)]
    rw [or_left_comm, or_assoc]

theorem entry?_insertAll_of_absent {entries : List (String × String × String)}
    (absent : ∀ value, (language, key, value) ∉ entries) (t : Table) :
    Table.entry? (t.insertAll entries) key language = t.entry? key language := by
  induction entries generalizing t with
  | nil => rfl
  | cons entry rest ih =>
    obtain ⟨l, k, v⟩ := entry
    rw [insertAll, List.foldl_cons, ← insertAll,
      ih fun value listed => absent value (List.mem_cons_of_mem _ listed), entry?_insert, if_neg]
    rintro ⟨rfl, rfl⟩
    exact absent v List.mem_cons_self

/-- Entries that all come from one table answer as they do there. -/
theorem entry?_insertAll_of_mem {entries : List (String × String × String)}
    (own : ∀ entry ∈ entries, entry ∈ b.listing) (listed : (language, key, value) ∈ entries)
    (t : Table) : Table.entry? (t.insertAll entries) key language = some value := by
  induction entries generalizing t with
  | nil => cases listed
  | cons entry rest ih =>
    have ownRest : ∀ entry ∈ rest, entry ∈ b.listing :=
      fun entry h => own entry (List.mem_cons_of_mem _ h)
    rw [insertAll, List.foldl_cons, ← insertAll]
    by_cases again : ∃ other, (language, key, other) ∈ rest
    · obtain ⟨other, behind⟩ := again
      have first := mem_listing_iff.1 (own _ listed)
      have second := mem_listing_iff.1 (ownRest _ behind)
      obtain rfl : value = other := Option.some.inj (first.symm.trans second)
      exact ih ownRest behind _
    · rw [not_exists] at again
      rcases List.mem_cons.1 listed with rfl | behind
      · rw [entry?_insertAll_of_absent again, entry?_insert, if_pos ⟨rfl, rfl⟩]
      · exact absurd behind (again value)

/-- Inserting the entries of a table in some order, each at least once, lays the table over. -/
theorem insertAll_eq_merge (full : ∀ entries ∈ b.languages.entries, entries.2 ≠ .empty)
    {entries : List (String × String × String)}
    (same : ∀ entry, entry ∈ entries ↔ entry ∈ b.listing) : a.insertAll entries = a.merge b := by
  refine eq_of_answers (fun language => Bool.eq_iff_iff.2 ?_) fun key language => ?_
  · rw [hasLanguage_insertAll, hasLanguage_merge, hasLanguage_iff_listing full, or_comm]
    simp only [same]
  · rw [entry?_merge]
    cases answer : b.entry? key language with
    | some value =>
      exact entry?_insertAll_of_mem (fun entry => (same entry).1)
        ((same _).2 (mem_listing_iff.2 answer)) a
    | none =>
      refine entry?_insertAll_of_absent (fun value listed => ?_) a
      rw [mem_listing_iff.1 ((same _).1 listed)] at answer
      cases answer

theorem lookup?_eq (t : Table) (key language : String) : t.lookup? key language =
    match t.entry? key language with
    | some value => if trim value = "" then none else some value
    | none => none := by
  rw [lookup?]
  cases t.entry? key language <;> simp [Option.filter]

theorem lookup?_merge (a b : Table) (key language : String) :
    (a.merge b).lookup? key language =
      match b.entry? key language with
      | some value => if trim value = "" then none else some value
      | none => a.lookup? key language := by
  rw [lookup?_eq, entry?_merge, lookup?_eq]
  cases b.entry? key language <;> rfl

/-- Laying tables over each other is associative and a second time changes nothing. Inserting the
entries of a table in any order lays it over, unless it has a language without entries, which an
insertion cannot make. A value of the later table counts even where it is blank, when there are no
words at all; where it has none, the earlier table answers. -/
theorem merge_later_wins (a b c : Table) :
    (a.merge b).merge c = a.merge (b.merge c) ∧
    (a.merge b).merge b = a.merge b ∧
    ((∀ entries ∈ b.languages.entries, entries.2 ≠ .empty) →
      ∀ entries, entries.Perm b.listing → a.insertAll entries = a.merge b) ∧
    (∀ key language,
      ((a.merge b).lookup? key language =
        match b.entry? key language with
        | some value => if trim value = "" then none else some value
        | none => a.lookup? key language) ∧
      (a.merge b).synonyms key language =
        match b.entry? key language with
        | some value => if trim value = "" then [] else splitSynonyms value
        | none => a.synonyms key language) ∧
    ∀ language,
      (a.merge b).hasLanguage language ↔ a.hasLanguage language ∨ b.hasLanguage language := by
  refine ⟨merge_assoc a b c, merge_merge_self a b, fun full entries order => ?_,
    fun key language => ⟨lookup?_merge a b key language, ?_⟩, hasLanguage_merge a b⟩
  · exact insertAll_eq_merge full fun entry => order.mem_iff
  · rw [synonyms, lookup?_merge]
    cases b.entry? key language with
    | none => rfl
    | some value => by_cases blank : trim value = "" <;> simp [blank]

/-- A blank French entry and an Esperanto one, inserted in the other order of the languages. -/
theorem merge_later_wins_blank :
    let a := (Table.empty.insert "fr" "next" "prochain").insert "fr" "today" "aujourd'hui"
    let b := (Table.empty.insert "fr" "next" " ").insert "eo" "today" "hodiaŭ|nun"
    let c := Table.empty.insert "fr" "next" "suivant"
    let entries := [("fr", "next", " "), ("eo", "today", "hodiaŭ|nun")]
    ((∀ entries ∈ b.languages.entries, entries.2 ≠ .empty) ∧ entries.Perm b.listing) ∧
      a.insertAll entries = a.merge b ∧
      (a.merge b).merge c = a.merge (b.merge c) ∧
      (a.merge b).lookup? "next" "fr" = none ∧ (a.merge b).synonyms "next" "fr" = [] ∧
      (a.merge b).synonyms "today" "eo" = ["hodiaŭ", "nun"] ∧
      (a.merge b).lookup? "today" "fr" = some "aujourd'hui" ∧ (a.merge b).hasLanguage "eo" := by
  intro a b c entries
  have full : ∀ entries ∈ b.languages.entries, entries.2 ≠ .empty := by decide +kernel
  have order : entries.Perm b.listing := by decide +kernel
  obtain ⟨assoc, -, inserted, answers, languages⟩ := merge_later_wins a b c
  have blank : b.entry? "next" "fr" = some " " := by decide +kernel
  have today : b.entry? "today" "eo" = some "hodiaŭ|nun" := by decide +kernel
  have absent : b.entry? "today" "fr" = none := by decide +kernel
  obtain ⟨hidden, noWords⟩ := answers "next" "fr"
  obtain ⟨-, words⟩ := answers "today" "eo"
  obtain ⟨earlier, -⟩ := answers "today" "fr"
  rw [blank] at hidden noWords
  rw [today] at words
  rw [absent] at earlier
  refine ⟨⟨full, order⟩, inserted full entries order, assoc, hidden.trans ?_, noWords.trans ?_,
    words.trans ?_, earlier.trans ?_, (languages "eo").2 (.inr ?_)⟩ <;> decide +kernel

end Table

end DatePhrase
