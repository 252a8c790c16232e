import DatePhrase.Proofs.Phrase.Offsets
import DatePhrase.Proofs.Phrase.Weekdays
import DatePhrase.Proofs.Text.Letters
import DatePhrase.Proofs.Text.Search

/-! Texts without blanks. All shapes but the first and the last have a gap between words, and so
does the announcement of a period; an immediate word and a weekday are made of words alone. Main
statement: over words without digits a text without blanks but with a digit has no fixed shape. -/
namespace DatePhrase
open Text Calendar

namespace Vocabulary
open Cut

variable {v : Vocabulary} {s : List Char}

theorem not_isGap (solid : ∀ c ∈ s, isBlank c = false) {gap : List Char} (within : gap ⊆ s) :
    ¬ IsGap gap := by
  intro isGap
  obtain ⟨c, inside⟩ := List.exists_mem_of_ne_nil _ isGap.1
  have blank := isGap.2 c inside
  rw [solid c (within inside)] at blank
  cases blank

/-- A text without blanks has no shape of several words with gaps. -/
theorem recognizeAs_of_solid (solid : ∀ c ∈ s, isBlank c = false) {shape : Shape}
    (words : shape ≠ .immediate) (touching : shape ≠ .weekday) :
    v.recognizeAs (String.ofList s) shape = none := by
  cases shape with
  | immediate => exact absurd rfl words
  | weekday => exact absurd rfl touching
  | combinedOffset =>
    have unread : v.cutCombined.all? s = none := by
      rw [all?_eq_none_iff]
      rintro ⟨⟨amount₁, unit₁⟩, amount₂, unit₂⟩ way
      obtain ⟨_, _, gap, _, _, _, _, _, _, parts, ⟨-, isGap, -⟩, -⟩ := mem_cutCombined.1 way
      exact not_isGap solid (fun c hc => by simp [parts, hc]) isGap
    simp only [recognizeAs, String.toList_ofList, unread, Option.bind_eq_bind, Option.bind_none]
  | relativeOffset =>
    have unread : v.cutRelative.all? s = none := by
      rw [all?_eq_none_iff]
      rintro ⟨amount, unit⟩ way
      obtain ⟨_, _, gap, _, _, parts, ⟨-, isGap, -⟩, -⟩ := mem_cutRelative.1 way
      exact not_isGap solid (fun c hc => by simp [parts, hc]) isGap
    simp only [recognizeAs, String.toList_ofList, unread, Option.bind_eq_bind, Option.bind_none]
  | weekdayRange =>
    have unread : v.cutRange.all? s = none := by
      rw [all?_eq_none_iff]
      rintro ⟨first, last⟩ way
      obtain ⟨_, _, gap, _, _, _, _, parts, -, -, ⟨isGap, -⟩, -⟩ := mem_cutRange.1 way
      exact not_isGap solid (fun c hc => by simp [parts, hc]) isGap
    simp only [recognizeAs, String.toList_ofList, unread, Option.bind_eq_bind, Option.bind_none]
  | weekdayAt =>
    have unread : v.cutWeekdayAt.all? s = none := by
      rw [all?_eq_none_iff]
      rintro ⟨⟨choice, day⟩, tail⟩ way
      obtain ⟨_, gap, _, _, parts, -, -, ⟨isGap, -⟩, -⟩ := mem_cutWeekdayAt.1 way
      exact not_isGap solid (fun c hc => by simp [parts, hc]) isGap
    simp only [recognizeAs, String.toList_ofList, unread, Option.bind_eq_bind, Option.bind_none]

theorem forward_cutNext (v : Vocabulary) : v.cutNext.Forward :=
  .bind (forward_oneOf _) fun _ => .bind (forward_atLeastOne _) fun _ => forward_atLeastOne _

/-- A text without blanks announces no period. -/
theorem nextPeriod?_of_solid (solid : ∀ c ∈ s, isBlank c = false) :
    v.nextPeriod? (String.ofList s) = none := by
  have unread : v.cutNext.scan s = [] := by
    rw [List.eq_nil_iff_forall_not_mem]
    intro span found
    obtain ⟨before, after, parts, -, -, way⟩ := exists_of_mem_scan v.forward_cutNext found
    obtain ⟨word, mid, first, way⟩ := mem_bind.1 way
    obtain ⟨gap, back, second, -⟩ := mem_bind.1 way
    obtain ⟨rest, -⟩ := mem_oneOf_iff.1 first
    obtain ⟨rfl, isGap⟩ := mem_cutGap.1 second
    exact not_isGap solid (fun c hc => by simp [parts, rest, hc]) isGap
  rw [nextPeriod?, String.toList_ofList, unread]
  rfl

variable {t : Table} {languages : List String} {c : Char}

/-- A weekday of a chosen week is made of words and blanks. -/
theorem recognizeAs_weekday_of_digit (undigited : t.Undigited) (inside : c ∈ s)
    (plain : IsPlainDigit c) :
    (ofTable t languages).recognizeAs (String.ofList s) .weekday = none := by
  have unread : (ofTable t languages).cutWeekday.all? s = none := by
    rw [all?_eq_none_iff]
    rintro ⟨choice, day⟩ way
    obtain ⟨before, after, parts, blank, blank', ⟨word, gap, rfl, fits⟩, named⟩ :=
      mem_cutWeekday.1 way
    have clear : ∀ {part}, AllBlank part → c ∉ part := by
      intro part blank hc
      have digit := isDigit_of_plain plain
      rw [isDigit_of_isBlank (blank c hc)] at digit
      cases digit
    have clear_word : c ∉ word ∧ c ∉ gap := by
      rcases fits with ⟨spelled, isGap⟩ | ⟨spelled, blank⟩
      · refine ⟨fun hc => not_plainDigit_of_spells ?_ spelled c hc plain, clear isGap.2⟩
        intro w listed
        obtain ⟨⟨week, h⟩, -⟩ := mem_spacedChoices.1 listed
        exact undigited.clear h
      · refine ⟨fun hc => not_plainDigit_of_spells ?_ spelled c hc plain, clear blank⟩
        intro w listed
        obtain ⟨⟨week, h⟩, -⟩ := mem_touchingChoices.1 listed
        exact undigited.clear h
    have clear_day : c ∉ day := by
      refine fun hc => not_plainDigit_of_spells ?_ named c hc plain
      intro w listed
      obtain ⟨known, h⟩ := mem_dayWords.1 listed
      exact undigited.clear h
    simp only [parts, List.append_nil, List.mem_append, clear blank, clear blank', clear_word,
      clear_day, or_self] at inside
  simp only [recognizeAs, String.toList_ofList, unread, Option.bind_eq_bind, Option.bind_none]

/-- Over words without digits a text without blanks but with a digit has no fixed shape. -/
theorem recognize_of_solid (undigited : t.Undigited) (solid : ∀ c ∈ s, isBlank c = false)
    (inside : c ∈ s) (plain : IsPlainDigit c) :
    (ofTable t languages).recognize (String.ofList s) = none := by
  rw [recognize, List.findSome?_eq_none_iff]
  intro shape _
  by_cases words : shape = .immediate
  · rw [words, recognizeAs, lookup_immediate_of_digit undigited (c := c) (by simpa using inside)
      (isDigit_of_plain plain), Option.map_none]
  · by_cases touching : shape = .weekday
    · rw [touching]
      exact recognizeAs_weekday_of_digit undigited inside plain
    · exact recognizeAs_of_solid solid words touching

end Vocabulary

end DatePhrase
