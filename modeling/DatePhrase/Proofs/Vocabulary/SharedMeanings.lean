import DatePhrase.Grammar.Casual
import DatePhrase.Proofs.Vocabulary.Words
import Mathlib.Data.List.Nodup

/-! What a word means to the recognizers and to the casual grammar of its language. A word under
several keys takes the first or the last of their meanings, as its table is read. Main statement:
both agree about day words and weekdays, and about a unit word iff no second unit lists it. -/
namespace DatePhrase
open Calendar

/-- The first and the last element of a kind are the same only when there is no other. -/
theorem find?_reverse_eq_iff {α : Type} {p : α → Bool} {all : List α} {first last : α}
    (once : all.Nodup) (fromStart : all.find? p = some first)
    (fromEnd : all.reverse.find? p = some last) :
    last = first ↔ ∀ a ∈ all, p a → a = first := by
  constructor
  · rintro rfl a listed kind
    obtain ⟨-, before, after, rfl, early⟩ := List.find?_eq_some_iff_append.1 fromStart
    obtain ⟨-, later, earlier, turned, late⟩ := List.find?_eq_some_iff_append.1 fromEnd
    have apart : last ∉ before ∧ last ∉ after := by
      rw [List.nodup_middle, List.nodup_cons, List.mem_append, not_or] at once
      exact once.1
    -- both searches stop at the same place, so the second has passed everything behind it
    have passed : after.reverse = later := by
      rw [List.reverse_append, List.reverse_cons, List.append_assoc, List.singleton_append,
        List.append_cons_inj_of_notMem (by simpa using apart.2) (by simpa using apart.1)] at turned
      exact turned.1
    rcases List.mem_append.1 listed with inFront | behind
    · exact absurd kind (by simpa using early a inFront)
    · rcases List.mem_cons.1 behind with rfl | behind
      · rfl
      · exact absurd kind (by simpa using late a (passed ▸ List.mem_reverse.2 behind))
  · intro only
    exact only last (List.mem_reverse.1 (List.mem_of_find?_eq_some fromEnd))
      (List.find?_some fromEnd)

/-- A search for what stands in the list finds something. -/
theorem exists_find?_of_mem {α : Type} {p : α → Bool} {all : List α} {a : α} (listed : a ∈ all)
    (kind : p a) : ∃ found, all.find? p = some found :=
  Option.isSome_iff_exists.1 (List.find?_isSome.2 ⟨a, listed, kind⟩)

namespace Vocabulary

variable {t : Table} {language w : String}

theorem exists_immediate_ofTable {i : Immediate} (listed : w ∈ t.words [language] i.name) :
    ∃ j, (ofTable t [language]).immediate.lookup w = some j ∧
      (Casual.ofTable t language).immediate.lookup w = some j := by
  obtain ⟨j, found⟩ := exists_find?_of_mem (p := fun i : Immediate =>
    w ∈ t.words [language] i.name) i.mem_all (by simpa using listed)
  exact ⟨j, (lookup_immediate_ofTable w).trans found, by
    rw [Casual.ofTable, lookup_meanings, found]⟩

/-- The English names that the recognizers know besides come after the weekdays of the table. -/
theorem exists_days_ofTable {d : Weekday} (listed : w ∈ t.words [language] d.name) :
    ∃ e, (ofTable t [language]).days.lookup w = some e ∧
      (Casual.ofTable t language).days.lookup w = some e := by
  obtain ⟨e, found⟩ := exists_find?_of_mem (p := fun d : Weekday =>
    w ∈ t.words [language] d.name) (List.mem_reverse.2 d.mem_all) (by simpa using listed)
  refine ⟨e, ?_, ?_⟩
  · rw [lookup_days_ofTable, found, Option.some_or]
  · rw [Casual.ofTable, lookup_reverse_meanings, found]

/-- The recognizers count a unit word by the last unit that lists it, the casual grammar by the
first. -/
theorem exists_units_ofTable {u : TimeUnit} (listed : w ∈ t.words [language] u.name) :
    ∃ last first, (ofTable t [language]).units.lookup w = some last ∧
      (Casual.ofTable t language).units.lookup w = some first ∧
      TimeUnit.all.reverse.find? (w ∈ t.words [language] ·.name) = some last ∧
      TimeUnit.all.find? (w ∈ t.words [language] ·.name) = some first := by
  have kind : (decide (w ∈ t.words [language] u.name) : Bool) := by simpa using listed
  obtain ⟨last, fromEnd⟩ := exists_find?_of_mem (p := fun u : TimeUnit =>
    w ∈ t.words [language] u.name) (List.mem_reverse.2 u.mem_all) kind
  obtain ⟨first, fromStart⟩ := exists_find?_of_mem (p := fun u : TimeUnit =>
    w ∈ t.words [language] u.name) u.mem_all kind
  refine ⟨last, first, ?_, ?_, fromEnd, fromStart⟩
  · rw [ofTable, unitMeanings, List.flatMap_singleton, lookup_reverse_meanings, fromEnd]
  · rw [Casual.ofTable, lookup_meanings, fromStart]

/-- The recognizers and the casual grammar of one language give each word of its table a meaning.
They agree about day words and weekdays; about a unit word they agree iff one unit alone lists it,
since a word under several units is counted by the last of them in the one table and by the first
in the other. -/
theorem meanings_shared (t : Table) (language w : String) :
    let v := ofTable t [language]
    let g := Casual.ofTable t language
    (∀ i : Immediate, w ∈ t.words [language] i.name →
      ∃ j, v.immediate.lookup w = some j ∧ g.immediate.lookup w = some j) ∧
    (∀ d : Weekday, w ∈ t.words [language] d.name →
      ∃ e, v.days.lookup w = some e ∧ g.days.lookup w = some e) ∧
    ∀ u : TimeUnit, w ∈ t.words [language] u.name →
      ∃ last first, v.units.lookup w = some last ∧ g.units.lookup w = some first ∧
        TimeUnit.all.reverse.find? (w ∈ t.words [language] ·.name) = some last ∧
        TimeUnit.all.find? (w ∈ t.words [language] ·.name) = some first ∧
        (last = first ↔ ∀ other : TimeUnit, w ∈ t.words [language] other.name → other = u) := by
  refine ⟨fun i => exists_immediate_ofTable, fun d => exists_days_ofTable, fun u listed => ?_⟩
  obtain ⟨last, first, counted, read, fromEnd, fromStart⟩ := exists_units_ofTable listed
  refine ⟨last, first, counted, read, fromEnd, fromStart, ?_⟩
  rw [find?_reverse_eq_iff (by decide) fromStart fromEnd]
  constructor
  · intro only other second
    rw [only other other.mem_all (by simpa using second), only u u.mem_all (by simpa using listed)]
  · intro only other _ second
    have stands : w ∈ t.words [language] first.name := by simpa using List.find?_some fromStart
    rw [only other (by simpa using second), only first stands]

/-- In a table that lists one word for weeks and for years, the recognizers count it in years, the
casual grammar in weeks; its words for now and for a Monday mean the same to both. -/
theorem meanings_shared_overlaid :
    let weeks := (Table.empty.insert "xx" "week" "w").insert "xx" "year" "w"
    let t := (weeks.insert "xx" "now" "n").insert "xx" "monday" "m|n"
    let v := ofTable t ["xx"]
    let g := Casual.ofTable t "xx"
    ("n" ∈ t.words ["xx"] Immediate.now.name ∧ "n" ∈ t.words ["xx"] Weekday.monday.name ∧
        "w" ∈ t.words ["xx"] TimeUnit.week.name) ∧
      (∃ j, v.immediate.lookup "n" = some j ∧ g.immediate.lookup "n" = some j) ∧
      (∃ e, v.days.lookup "n" = some e ∧ g.days.lookup "n" = some e) ∧
      v.units.lookup "w" = some .year ∧ g.units.lookup "w" = some .week := by
  intro weeks t v g
  have now : "n" ∈ t.words ["xx"] Immediate.now.name := by decide +kernel
  have monday : "n" ∈ t.words ["xx"] Weekday.monday.name := by decide +kernel
  have week : "w" ∈ t.words ["xx"] TimeUnit.week.name := by decide +kernel
  obtain ⟨sameDayWord, sameWeekday, -⟩ := meanings_shared t "xx" "n"
  obtain ⟨last, first, counted, read, fromEnd, fromStart, -⟩ :=
    (meanings_shared t "xx" "w").2.2 .week week
  obtain rfl : last = .year := Option.some.inj (fromEnd.symm.trans (by decide +kernel))
  obtain rfl : first = .week := Option.some.inj (fromStart.symm.trans (by decide +kernel))
  exact ⟨⟨now, monday, week⟩, sameDayWord .now now, sameWeekday .monday monday, counted, read⟩

/-- A word for weeks and for years is counted in two ways. -/
theorem units_not_shared :
    ¬ ∀ (t : Table) (language w : String) (u : TimeUnit), w ∈ t.words [language] u.name →
      (ofTable t [language]).units.lookup w = (Casual.ofTable t language).units.lookup w := by
  intro shared
  let t := (Table.empty.insert "xx" "week" "w").insert "xx" "year" "w"
  have same := shared t "xx" "w" .week (by decide +kernel)
  exact absurd same (by decide +kernel)

end Vocabulary

end DatePhrase
