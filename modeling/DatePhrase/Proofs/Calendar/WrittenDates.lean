import DatePhrase.Calendar.Layout
import DatePhrase.Proofs.Calendar.CivilDates
import DatePhrase.Proofs.Text.Folded
import Mathlib.Data.List.Chain

/-! Dates as year, month and day between dashes. From year 0 to 9999 the usual layout writes four
digits, two and two, and the numbers that they write are the parts of the date; so the text has
dashes only between digits. -/
namespace DatePhrase
open Text Calendar

theorem Calendar.monthLength_le (leap : Bool) {month : Nat} (h : month ≤ 12) :
    monthLength leap month ≤ 31 := by
  have each : ∀ leap, ∀ m < 13, monthLength leap m ≤ 31 := by decide
  exact each leap month (by omega)

/-- The digits of a date: four for the year, two for the month and two for the day. -/
structure DateDigits (d : Date) where
  year : List Char
  month : List Char
  day : List Char
  positive : 0 ≤ d.year
  writes_year : Writes year d.year.toNat
  four : year.length = 4
  writes_month : Writes month d.month
  two : month.length = 2
  writes_day : Writes day d.day
  two_day : day.length = 2

namespace DateDigits
variable {d : Date} (p : DateDigits d)

/-- The digits with dashes between them. -/
def text : List Char := p.year ++ ('-' :: (p.month ++ ('-' :: p.day)))

theorem chars : ∀ c ∈ p.text, IsPlainDigit c ∨ c = '-' := by
  intro c hc
  simp only [text, List.mem_append, List.mem_cons] at hc
  rcases hc with year | rfl | month | rfl | day
  · exact .inl (p.writes_year.2.1 c year)
  · exact .inr rfl
  · exact .inl (p.writes_month.2.1 c month)
  · exact .inr rfl
  · exact .inl (p.writes_day.2.1 c day)

theorem isDateChar : ∀ c ∈ p.text, isDateChar c := by
  intro c hc
  rcases p.chars c hc with plain | rfl
  · exact isDateChar_of_plainDigit plain
  · decide

theorem folded : AllFolded p.text := fun c hc => folded_of_isDateChar (p.isDateChar c hc)

theorem solid : ∀ c ∈ p.text, isBlank c = false := by
  intro c hc
  rcases p.chars c hc with plain | rfl
  · exact isBlank_of_isDigit (isDigit_of_plain plain)
  · decide

theorem length_text : p.text.length = 10 := by
  simp only [text, List.length_append, List.length_cons, p.four, p.two, p.two_day]

theorem text_ne_nil : p.text ≠ [] := by simp [text]

/-- Of two characters side by side one is a digit. -/
theorem isChain : p.text.IsChain fun a b => IsPlainDigit a ∨ IsPlainDigit b := by
  have run : ∀ {digits : List Char}, (∀ c ∈ digits, IsPlainDigit c) →
      digits.IsChain fun a b => IsPlainDigit a ∨ IsPlainDigit b := by
    intro digits plain
    apply List.Pairwise.isChain
    exact List.pairwise_of_forall_mem_list fun a ha _ _ => .inl (plain a ha)
  have dashed : ∀ {digits more : List Char}, (∀ c ∈ digits, IsPlainDigit c) →
      (more.IsChain fun a b => IsPlainDigit a ∨ IsPlainDigit b) →
      (∀ c ∈ more.head?, IsPlainDigit c) →
      (digits ++ '-' :: more).IsChain fun a b => IsPlainDigit a ∨ IsPlainDigit b := by
    intro digits more plain chain first
    refine List.isChain_append.2 ⟨run plain, ?_, ?_⟩
    · exact List.isChain_cons.2 ⟨fun c hc => .inr (first c hc), chain⟩
    · exact fun a ha _ _ => .inl (plain a (List.mem_of_mem_getLast? ha))
  refine dashed p.writes_year.2.1 (dashed p.writes_month.2.1 (run p.writes_day.2.1) ?_) ?_
  · exact fun c hc => p.writes_day.2.1 c (List.mem_of_mem_head? hc)
  · intro c hc
    rw [List.head?_append_of_ne_nil _ p.writes_month.1] at hc
    exact p.writes_month.2.1 c (List.mem_of_mem_head? hc)

/-- The text begins with a digit. -/
theorem begins : ∃ c more, p.text = c :: more ∧ IsPlainDigit c := by
  obtain ⟨c, more, year⟩ := List.exists_cons_of_ne_nil p.writes_year.1
  exact ⟨c, _, by rw [text, year, List.cons_append], p.writes_year.2.1 c (by simp [year])⟩

include p in
theorem ofCivil?_eq : Date.ofCivil? (d.year.toNat : Int) d.month d.day = some d := by
  rw [Int.toNat_of_nonneg p.positive, Date.ofCivil?_civil]

end DateDigits

theorem Layout.read?_dashed : Layout.read? "%Y-%m-%d".toList = some Layout.dashed := by decide

theorem Instant.format_dashed (d : Date) (time : TimeOfDay) :
    Instant.format ⟨d, time⟩ "%Y-%m-%d" = .ok (writeYear .zeros d.year ++ "-" ++
      writeNat .zeros 2 d.month ++ "-" ++ writeNat .zeros 2 d.day) := by
  have written : Layout.write? d (some time) Layout.dashed = some (String.join
      [writeYear .zeros d.year, "-", writeNat .zeros 2 d.month, "-",
        writeNat .zeros 2 d.day]) := rfl
  simp only [Instant.format, Layout.read?_dashed, Option.bind_some, written, String.join,
    List.foldl_cons, List.foldl_nil, String.empty_append]

/-- From year 0 to 9999 the usual layout writes the digits of the date. -/
theorem exists_dateDigits {d : Date} (lower : 0 ≤ d.year) (upper : d.year ≤ 9999) :
    ∃ p : DateDigits d, ∀ time,
      Instant.format ⟨d, time⟩ "%Y-%m-%d" = .ok (String.ofList p.text) := by
  have month := d.month_bounds
  have day := d.day_bounds
  have most := monthLength_le (isLeap d.year) month.2
  have short : d.year.toNat < 10 ^ 4 := by omega
  have short_month : d.month < 10 ^ 2 := by omega
  have short_day : d.day < 10 ^ 2 := by omega
  obtain ⟨writes_year, four⟩ := writes_writeNat (by decide) short
  obtain ⟨writes_month, two⟩ := writes_writeNat (by decide) short_month
  obtain ⟨writes_day, two_day⟩ := writes_writeNat (by decide) short_day
  have usual : writeYear .zeros d.year = writeNat .zeros 4 d.year.toNat := by
    rw [writeYear, if_pos ⟨lower, upper⟩, writeNat, Int.toNat_of_nonneg lower]
  refine ⟨⟨_, _, _, lower, writes_year, four, writes_month, two, writes_day, two_day⟩, ?_⟩
  intro time
  rw [Instant.format_dashed, usual]
  have dash : "-".toList = ['-'] := rfl
  refine congrArg Except.ok (String.toList_inj.1 ?_)
  simp only [String.toList_append, String.toList_ofList, DateDigits.text, List.append_assoc, dash,
    List.cons_append, List.nil_append]

end DatePhrase
