import DatePhrase.Proofs.Grammar.ClockForms
import DatePhrase.Proofs.Text.TextBehind

/-! Clock times that the rules find in a text. What a rule takes for a time, be it alone or behind a
day or an offset, is read once more by itself, as a whole. Both readings try the same forms in the
same order, and what stands behind a time makes no difference to how it is cut, so the second one
finds the parts that the first one found. Main statement: a stretch that is taken for a time has the
hour and minute that its numerals write, moved by the half of the day where it has one, unless they
are out of range or not in the digits 0 to 9. -/
namespace DatePhrase
open Text Calendar

namespace Casual
open Cut
open Vocabulary (cutBlanks)

/-- The text by itself is a time just when its numerals are in range and in the digits 0 to 9, and
then it is the time that they write. -/
def ReadsAsWritten (g : Casual) (text : List Char) : Prop :=
  ∃ hour minute half, WritesClock text hour minute half ∧
    ((g.clockTime? text).isSome ↔ (∀ c ∈ text, isDigit c → IsPlainDigit c) ∧
      HourFits half (valueOf hour) ∧ minuteOn minute < 60) ∧
    ∀ time, g.clockTime? text = some time →
      time.Shows (hourOn half (valueOf hour)) (minuteOn minute)

/-- The rules whose expressions may end in a time. -/
inductive Timed
  | dayWord
  | weekday
  | offset

namespace Timed
variable (g : Casual)

def rule : Timed → Rule
  | dayWord => g.dayWordRule
  | weekday => g.weekdayRule
  | offset => g.offsetRule

/-- The expression up to its time, which then tells what it means. -/
def opening : Timed → Cut (Option (List Char) → Meaning)
  | dayWord => g.dayWordMeaning <$> .oneOf g.immediateWords
  | weekday => g.weekdayMeaning <$> .oneOf g.dayWords
  | offset => do
    let _ ← .oneOf g.within
    let _ ← g.cutSpace
    let amount ← .oneTo 9 isDigit
    let _ ← cutBlanks
    let unit ← .oneOf g.unitWords
    return g.offsetMeaning amount unit

/-- The expression with the time that is taken for its end. -/
def cut (kind : Timed) : Cut (Meaning × Option (List Char)) := do
  let means ← kind.opening g
  let time ← g.cutTrailing
  return (means time, time)

theorem fst_cut (kind : Timed) : Prod.fst <$> kind.cut g = kind.rule g := by
  cases kind <;>
    simp [cut, opening, rule, dayWordRule, weekdayRule, offsetRule]

theorem forward_opening (kind : Timed) : (kind.opening g).Forward := by
  cases kind with
  | dayWord => exact .bind (forward_oneOf _) fun _ => forward_pure _
  | weekday => exact .bind (forward_oneOf _) fun _ => forward_pure _
  | offset =>
    exact .bind (forward_oneOf _) fun _ => .bind g.forward_cutSpace fun _ =>
      .bind (forward_oneTo _ _) fun _ => .bind (forward_many _) fun _ =>
      .bind (forward_oneOf _) fun _ => forward_pure _

theorem forward_cut (kind : Timed) : (kind.cut g).Forward :=
  .bind (kind.forward_opening g) fun _ => .bind g.forward_cutTrailing fun _ => forward_pure _

end Timed

section Local
variable (g : Casual)

theorem local_cutClock : g.cutClock.Local :=
  .or (.or
    (.bind (local_oneTo _ _) fun _ =>
      .bind (.optional (.bind (local_char _) fun _ => local_exactly _ _)) fun _ =>
      .bind (local_many _) fun _ => .bind (local_oneOf _) fun _ => local_pure _)
    (.bind (local_oneTo _ _) fun _ => .bind (local_char _) fun _ =>
      .bind (local_exactly _ _) fun _ => local_pure _))
    (.bind (local_oneTo _ _) fun _ => .bind (local_many _) fun _ =>
      .bind (local_oneOf _) fun _ =>
      .bind (.optional (.bind (local_many _) fun _ => local_exactly _ _)) fun _ =>
      .bind (.optional (.bind (local_many _) fun _ => local_oneOf _)) fun _ => local_pure _)

theorem prefers_of_prefers_timeRule {s rest : List Char} {meaning : Meaning}
    (h : Cut.Prefers g.timeRule s meaning rest) : ∃ text c, s = text ++ rest ∧
      g.cutClock.Prefers (text ++ rest) c rest ∧ meaning = g.timeMeaning text := by
  rw [timeRule_eq] at h
  obtain ⟨⟨text, c⟩, first, rfl⟩ := exists_of_prefers_bind_pure h
  obtain ⟨rfl, own⟩ := prefers_of_prefers_taken g.forward_cutClock first
  exact ⟨text, c, rfl, own, rfl⟩

theorem prefers_of_prefers_cutTrailing {s rest text : List Char}
    (h : g.cutTrailing.Prefers s (some text) rest) :
      ∃ c, g.cutClock.Prefers (text ++ rest) c rest := by
  rw [cutTrailing_eq] at h
  obtain ⟨-, s₁, -, h⟩ := exists_mem_of_prefers_bind (prefers_of_prefers_optional h)
  obtain ⟨-, s₂, -, h⟩ := exists_mem_of_prefers_bind h
  obtain ⟨⟨taken, c⟩, first, rfl⟩ := exists_of_prefers_bind_pure h
  obtain ⟨rfl, own⟩ := prefers_of_prefers_taken g.forward_cutClock first
  exact ⟨c, own⟩

theorem prefers_of_prefers_cut {kind : Timed} {s rest : List Char} {meaning : Meaning}
    {time : Option (List Char)} (h : (kind.cut g).Prefers s (meaning, time) rest) :
    ∃ mid, g.cutTrailing.Prefers mid time rest := by
  obtain ⟨means, mid, -, h⟩ := exists_mem_of_prefers_bind h
  obtain ⟨trailing, taken, same⟩ := exists_of_prefers_bind_pure h
  obtain ⟨-, rfl⟩ := Prod.mk.inj same
  exact ⟨mid, taken⟩

end Local

section Reading
variable {t : Table} {language : String} {c : ClockText} {text back : List Char}

theorem clockTime?_eq_of_prefers (first : (ofTable t language).cutClock.Prefers text c []) :
    (ofTable t language).clockTime? text = c.time? := by
  have way := List.mem_of_mem_head? first
  obtain ⟨taken, parts, -, tight⟩ := ends_cutClock _ _ _ way
  rw [List.append_nil] at parts
  rw [clockTime?, trimBlanks_eq_self (opens_cutClock _ _ _ _ way) (parts ▸ tight), first.all?]
  rfl

section Undigited
variable (undigited : ∀ key ∈ ["hourSuffix", "minuteSuffix"], ∀ w ∈ t.words [language] key,
  ∀ c ∈ w.toList, isDigit c = false)
include undigited

/-- What is cut as a clock time somewhere in a text is read back as it is written. -/
theorem readsAsWritten_of_prefers
    (found : (ofTable t language).cutClock.Prefers (text ++ back) c back) :
    (ofTable t language).ReadsAsWritten text := by
  -- nothing behind the stretch had a part in how it was cut, so the second reading cuts it the same
  have first := (local_cutClock _).prefers_of_append found
  obtain ⟨half, tells, figures, writes⟩ := exists_half_of_prefers undigited first
  have read : ∀ time, c.time? = some time ↔ _ := fun time => time?_eq_some_iff figures tells
  refine ⟨c.hour, c.minute, half, writes, ?_, ?_⟩
  · rw [clockTime?_eq_of_prefers first, writes.forall_digits, Option.isSome_iff_exists]
    constructor
    · rintro ⟨time, same⟩
      obtain ⟨plain, fits, before, -⟩ := (read time).1 same
      exact ⟨plain, fits, before⟩
    · rintro ⟨plain, fits, before⟩
      obtain ⟨time, shows⟩ := TimeOfDay.exists_shows fits.hourOn_lt before
      exact ⟨time, (read time).2 ⟨plain, fits, before, shows⟩⟩
  · intro time same
    rw [clockTime?_eq_of_prefers first, read] at same
    exact same.2.2.2

theorem readsAsWritten_of_mem_scan {s : Span Meaning}
    (found : s ∈ (ofTable t language).timeRule.scan text) :
    s.value = (ofTable t language).timeMeaning s.text ∧
      (ofTable t language).ReadsAsWritten s.text := by
  have forward : Cut.Forward (ofTable t language).timeRule :=
    forward_of_mem_rules (g := ofTable t language) (by simp [rules])
  obtain ⟨before, after, -, -, -, read⟩ := prefers_of_mem_scan forward found
  obtain ⟨own, c, parts, first, value⟩ := prefers_of_prefers_timeRule _ read
  obtain rfl := List.append_cancel_right parts
  exact ⟨value, readsAsWritten_of_prefers undigited first⟩

theorem readsAsWritten_of_trailing {kind : Timed} {s : Span (Meaning × Option (List Char))}
    (found : s ∈ (kind.cut (ofTable t language)).scan text) :
    ∀ time ∈ s.value.2, (ofTable t language).ReadsAsWritten time := by
  intro time states
  obtain ⟨before, after, -, -, -, read⟩ := prefers_of_mem_scan (kind.forward_cut _) found
  obtain ⟨mid, trailing⟩ := prefers_of_prefers_cut _ read
  rw [Option.mem_def.1 states] at trailing
  obtain ⟨c, first⟩ := prefers_of_prefers_cutTrailing _ trailing
  exact readsAsWritten_of_prefers undigited first

/-- Where the words for hours and minutes have no digits, all times that the rules find in a text,
alone or behind a day or an offset, are read back as they are written. -/
theorem found_times_read_as_written (text : List Char) :
    (∀ s ∈ (ofTable t language).timeRule.scan text,
      s.value = (ofTable t language).timeMeaning s.text ∧
        (ofTable t language).ReadsAsWritten s.text) ∧
    ∀ kind : Timed, (kind.rule (ofTable t language)).scan text =
        ((kind.cut (ofTable t language)).scan text).map (Span.map Prod.fst) ∧
      ∀ s ∈ (kind.cut (ofTable t language)).scan text, ∀ time ∈ s.value.2,
        (ofTable t language).ReadsAsWritten time := by
  refine ⟨fun s found => readsAsWritten_of_mem_scan undigited found, fun kind => ⟨?_, ?_⟩⟩
  · rw [← kind.fst_cut, scan_map]
  · exact fun s found => readsAsWritten_of_trailing undigited found

end Undigited

theorem found_times_read_as_written_french :
    let words := [("tomorrow", "demain"), ("at", "à"), ("hourSuffix", "h"), ("minuteSuffix", "min")]
    let t := words.foldl (fun t (key, word) => t.insert "fr" key word) Table.empty
    let g := ofTable t "fr"
    let text := "12 AM, demain à 15h 30min".toList
    (∀ key ∈ ["hourSuffix", "minuteSuffix"], ∀ w ∈ t.words ["fr"] key,
        ∀ c ∈ w.toList, isDigit c = false) ∧
      (∃ s ∈ g.timeRule.scan text, s.text = "12 AM".toList ∧ g.ReadsAsWritten s.text) ∧
      (∃ s ∈ (Timed.dayWord.cut g).scan text, s.value.2 = some "15h 30min".toList ∧
        g.ReadsAsWritten "15h 30min".toList) ∧
      ((g.clockTime? "12 AM".toList).isSome ∧ (g.clockTime? "15h 30min".toList).isSome) := by
  intro words t g text
  have undigited : ∀ key ∈ ["hourSuffix", "minuteSuffix"], ∀ w ∈ t.words ["fr"] key,
      ∀ c ∈ w.toList, isDigit c = false := by decide +kernel
  have alone : "12 AM".toList ∈ (g.timeRule.scan text).map (·.text) := by decide +kernel
  have trailing : some "15h 30min".toList ∈ ((Timed.dayWord.cut g).scan text).map (·.value.2) := by
    decide +kernel
  obtain ⟨times, timed⟩ := found_times_read_as_written undigited text
  obtain ⟨s, found, same⟩ := List.mem_map.1 alone
  obtain ⟨r, behind, states⟩ := List.mem_map.1 trailing
  exact ⟨undigited, ⟨s, found, same, (times s found).2⟩,
    ⟨r, behind, states, (timed .dayWord).2 r behind _ states⟩, by decide +kernel, by decide +kernel⟩

end Reading

end Casual

end DatePhrase
