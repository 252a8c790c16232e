import DatePhrase.Proofs.Calendar.LayoutTexts
import DatePhrase.Rendering

/-! A stamp of the present instant has its date, the separator and its time in one layout, so the
separator is read as a layout too. Main statement: it stands in the stamp as it stands in the
settings exactly if it has no percent sign. -/
namespace DatePhrase.Settings
open Calendar

variable {s : Settings} {now : Instant} {date time : String}

/-- The separator is literal where it has no percent sign, and only there. -/
theorem renderStamp_now_eq_ok_iff (today : s.renderStamp .today now = .ok date)
    (clock : s.renderStamp .time now = .ok time) :
    s.renderStamp .now now = .ok (date ++ s.separator ++ time) ↔ '%' ∉ s.separator.toList := by
  have behind : s.renderStamp .now now = .ok (date ++ s.separator ++ time) ↔
      now.format (s.separator ++ s.timeFormat) = .ok (s.separator ++ time) := by
    rw [renderStamp, String.append_assoc, String.append_assoc]
    exact Instant.format_append today _ _
  rw [behind]
  constructor
  · intro whole
    rw [Instant.format_eq_ok_iff_renders, String.toList_append, String.toList_append] at whole
    have alone := Instant.format_eq_ok_iff_renders.1 clock
    exact (alone.plain_of_eq (e := []) whole).2
  · intro plain
    exact (Instant.format_append (Instant.format_of_plain plain) _ _).2 clock

/-- A stamp of two valid layouts is the date, the separator and the time exactly if the separator
has no percent sign. -/
theorem renderStamp_literal (s : Settings) (now : Instant)
    (dateLayout : (Layout.read? s.format.toList).isSome)
    (timeLayout : (Layout.read? s.timeFormat.toList).isSome) :
    ∃ date time, s.renderStamp .today now = .ok date ∧ s.renderStamp .time now = .ok time ∧
      (s.renderStamp .now now = .ok (date ++ s.separator ++ time) ↔
        '%' ∉ s.separator.toList) := by
  obtain ⟨_, dateRead⟩ := Option.isSome_iff_exists.1 dateLayout
  obtain ⟨_, timeRead⟩ := Option.isSome_iff_exists.1 timeLayout
  obtain ⟨date, today⟩ := now.exists_format dateRead
  obtain ⟨time, clock⟩ := now.exists_format timeRead
  exact ⟨date, time, today, clock, renderStamp_now_eq_ok_iff today clock⟩

/-- An at sign between day and time is literal. -/
theorem renderStamp_literal_at :
    let s := { default with format := "%d/%m", separator := " @ " }
    let now : Instant := ⟨⟨20749, by decide, by decide⟩, ⟨29100000000000, by decide, false⟩⟩
    (Layout.read? s.format.toList).isSome ∧ (Layout.read? s.timeFormat.toList).isSome ∧
      '%' ∉ s.separator.toList ∧ s.renderStamp .now now = .ok "23/10 @ 08:05" := by
  intro s now
  have dateLayout : (Layout.read? s.format.toList).isSome := by decide
  have timeLayout : (Layout.read? s.timeFormat.toList).isSome := by decide
  have plain : '%' ∉ s.separator.toList := by decide
  obtain ⟨date, time, today, clock, literal⟩ := renderStamp_literal s now dateLayout timeLayout
  have whole := literal.2 plain
  have : s.renderStamp .today now = .ok "23/10" := by decide +kernel
  obtain rfl : date = "23/10" := Except.ok.inj (today.symm.trans this)
  have : s.renderStamp .time now = .ok "08:05" := by decide +kernel
  obtain rfl : time = "08:05" := Except.ok.inj (clock.symm.trans this)
  exact ⟨dateLayout, timeLayout, plain, whole⟩

/-- A separator with the marks of the day is written as the day. -/
theorem not_renderStamp_of_parts :
    ¬ ∀ (s : Settings) (now : Instant), (Layout.read? s.format.toList).isSome →
      (Layout.read? s.timeFormat.toList).isSome →
      ∃ date time, s.renderStamp .today now = .ok date ∧ s.renderStamp .time now = .ok time ∧
        s.renderStamp .now now = .ok (date ++ s.separator ++ time) := by
  intro literal
  let s := { default with format := "%d/%m", separator := " %d " }
  let now : Instant := ⟨⟨20749, by decide, by decide⟩, ⟨29100000000000, by decide, false⟩⟩
  obtain ⟨date, time, today, clock, whole⟩ := literal s now (by decide) (by decide)
  have date_eq : s.renderStamp .today now = .ok "23/10" := by decide +kernel
  have time_eq : s.renderStamp .time now = .ok "08:05" := by decide +kernel
  have day : s.renderStamp .now now = .ok "23/10 23 08:05" := by decide +kernel
  obtain rfl : date = "23/10" := Except.ok.inj (today.symm.trans date_eq)
  obtain rfl : time = "08:05" := Except.ok.inj (clock.symm.trans time_eq)
  rw [day] at whole
  exact absurd whole (by decide)

end DatePhrase.Settings
