import DatePhrase.Proofs.Engine.CommonMatch
import DatePhrase.Proofs.Grammar.WrittenDates
import DatePhrase.Proofs.Phrase.Shapes
import DatePhrase.Proofs.Phrase.SolidTexts
import DatePhrase.Rendering

/-! Writing a date and reading it again. Without digits in its words no vocabulary claims the text
of a date, and all grammars find that date in it, so no reader of phrases is asked. Main statement:
the text is resolved to the date at the present time of day, without a time stated and without a
range, and comes back when that is rendered. Only a lone dash for a word can get in the way, and
only where the calendar ends. -/
namespace DatePhrase
open Text Calendar

namespace DateDigits
variable {d : Date} (p : DateDigits d) {t : Table} {language : String}

theorem stops_text : Stops isBlank p.text :=
  fun c hc => p.solid c (List.mem_of_mem_head? hc)

theorem tight_text : Tight p.text :=
  fun c hc => p.solid c (List.mem_of_mem_getLast? hc)

theorem normalize_eq : Engine.normalize (String.ofList p.text) = String.ofList p.text := by
  refine lower_trim_of_folded ?_ ?_ ?_ <;> rw [String.toList_ofList]
  · exact p.folded
  · exact p.stops_text
  · exact p.tight_text

/-- The language finds the date as one match. -/
theorem readsWhole (undigited : t.Undigited) {o : Options}
    (room : o.HasRoom ∨ ∀ key, "-" ∉ t.words [language] key) :
    Casual.ReadsWhole t language (String.ofList p.text) o
      ⟨0, String.ofList p.text, ⟨d, o.reference.time⟩, .calendarDay⟩ where
  read := by
    apply Casual.read_eq_ok
    rw [String.toList_ofList]
    exact p.matches?_eq_ok undigited room
  whole := rfl
  trimmed := by rw [trim, String.toList_ofList, trimBlanks_eq_self p.stops_text p.tight_text]

end DateDigits

namespace Engine

/-- A date from year 0 to 9999 is read back from its text, at the present time of day. -/
theorem resolve_writtenDate (reader : PhraseReader) (t : Table) (languages : List String)
    (preference : WeekStart) (now : Instant) (d : Date) (undigited : t.Undigited)
    (some : supported t languages ≠ []) (lower : 0 ≤ d.year) (upper : d.year ≤ 9999)
    (room : now.date.Inside 14 ∨ ∀ key language, "-" ∉ t.words [language] key) :
    let e := ofTable reader t languages
    ∃ text, (∀ time, Instant.format ⟨d, time⟩ "%Y-%m-%d" = .ok text) ∧
      (e.resolve text preference now).outcome = .ok ⟨⟨d, now.time⟩, false⟩ ∧
      e.range text preference now = .ok none ∧
      Settings.default.renderPoint ⟨⟨d, now.time⟩, false⟩ = .ok text := by
  intro e
  obtain ⟨p, written⟩ := exists_dateDigits lower upper
  obtain ⟨c, more, begins, digit⟩ := p.begins
  have unclaimed : e.vocabulary.recognize (String.ofList p.text) = none :=
    Vocabulary.recognize_of_solid undigited p.solid (by simp [begins]) digit
  have unannounced : e.vocabulary.nextPeriod? (String.ofList p.text) = none :=
    Vocabulary.nextPeriod?_of_solid p.solid
  let m : Match := ⟨0, String.ofList p.text, ⟨d, now.time⟩, .calendarDay⟩
  have plain : ∀ weekStart, ∀ l ∈ supported t languages,
      Casual.ReadsWhole t l (String.ofList p.text) (.plain now weekStart) m := fun weekStart l _ =>
    p.readsWhole undigited <|
      room.imp (Options.hasRoom_plain weekStart) fun dashless key => dashless key l
  have forward : ∀ weekStart, ∀ l ∈ supported t languages,
      Casual.ReadsWhole t l (String.ofList p.text) ⟨now, true, weekStart⟩ m := fun weekStart l _ =>
    p.readsWhole undigited <|
      room.imp (Options.hasRoom_forward weekStart) fun dashless key => dashless key l
  have date : (e.date (String.ofList p.text) preference now).outcome = .ok ⟨d, now.time⟩ := by
    obtain ⟨stays, voted, -⟩ := firsts_of_common some (plain (e.weekStart preference))
    obtain ⟨stays', voted', same⟩ := firsts_of_common some (forward (e.weekStart preference))
    have period : Pool.periodStart e.vocabulary (String.ofList p.text) (e.weekStart preference)
        now = .ok none := by
      rw [Pool.periodStart, unannounced]
      rfl
    rw [date_of_no_point, p.normalize_eq, Pool.resolve_of_no_period stays stays' voted period,
      Pool.longest?_of_forall voted' same]
    · rfl
    · rw [p.normalize_eq, recognizedPoint_of_none unclaimed]
      rfl
  have time : (e.hasTime (String.ofList p.text) now).outcome = .ok false := by
    rw [hasTime_of_unclaimed (by rwa [p.normalize_eq]), p.normalize_eq,
      outcome_mentionsTime_of_common some (plain _)]
    rfl
  refine ⟨String.ofList p.text, written, outcome_resolve date time, ?_, written now.time⟩
  rw [range, p.normalize_eq, DateRange.ofText, unannounced,
    Vocabulary.recognizeAs_of_not_recognized unclaimed]
  rfl

/-- A leap day in a year of one digit, though the reader of phrases breaks down over everything. -/
theorem resolve_writtenDate_leap :
    let e := ofTable (fun _ => .broken) Table.builtin ["en", "ja"]
    let now : Instant := ⟨⟨20742, by decide, by decide⟩, ⟨10 * nanosPerHour, by decide, false⟩⟩
    let leap : Date := ⟨-718008, by decide, by decide⟩
    (Table.builtin.Undigited ∧ supported Table.builtin ["en", "ja"] ≠ [] ∧ 0 ≤ leap.year ∧
        leap.year ≤ 9999 ∧ now.date.Inside 14) ∧
      Instant.format leap.midnight "%Y-%m-%d" = .ok "0004-02-29" ∧
      (e.resolve "0004-02-29" .localeDefault now).outcome = .ok ⟨⟨leap, now.time⟩, false⟩ ∧
      e.range "0004-02-29" .localeDefault now = .ok none := by
  intro e now leap
  have some : supported Table.builtin ["en", "ja"] ≠ [] := by decide +kernel
  have year : 0 ≤ leap.year ∧ leap.year ≤ 9999 := by decide +kernel
  have inside : now.date.Inside 14 := by decide
  obtain ⟨text, written, resolved, unranged, -⟩ := resolve_writtenDate (fun _ => .broken)
    Table.builtin ["en", "ja"] .localeDefault now leap Vocabulary.undigited_builtin some year.1
    year.2 (.inl inside)
  have usual : Instant.format leap.midnight "%Y-%m-%d" = .ok "0004-02-29" := by decide +kernel
  obtain rfl : text = "0004-02-29" := Except.ok.inj ((written .midnight).symm.trans usual)
  exact ⟨⟨Vocabulary.undigited_builtin, some, year.1, year.2, inside⟩, usual, resolved, unranged⟩

/-- A lone dash for tomorrow, beside a word in a script without spaces, takes the text of a date out
of the calendar on its last day. -/
theorem resolve_writtenDate_missed :
    ¬ ∀ (reader : PhraseReader) (t : Table) (languages : List String) (preference : WeekStart)
        (now : Instant) (d : Date) (text : String), t.Undigited → supported t languages ≠ [] →
      0 ≤ d.year → d.year ≤ 9999 → Instant.format ⟨d, now.time⟩ "%Y-%m-%d" = .ok text →
      ((ofTable reader t languages).resolve text preference now).outcome =
        .ok ⟨⟨d, now.time⟩, false⟩ := by
  intro back
  let t := (Table.empty.insert "xx" "monday" "月").insert "xx" "tomorrow" "-"
  let last : Instant := ⟨⟨lastDay, by decide, by decide⟩, ⟨10 * nanosPerHour, by decide, false⟩⟩
  let friday : Date := ⟨20742, by decide, by decide⟩
  have undigited : t.Undigited := by
    intro key language w listed
    rw [Table.synonyms, Table.lookup?, Table.entry?_insert, Table.entry?_insert] at listed
    have each : ∀ value ∈ ["-", "月"], ∀ w ∈ splitSynonyms value, ∀ c ∈ w.toList,
        isDigit c = false := by decide +kernel
    split_ifs at listed with tomorrow monday
    · exact each "-" (by simp) w listed
    · exact each "月" (by simp) w listed
    · cases listed
  have lost : ((ofTable .silent t ["xx"]).resolve "2026-10-16" .localeDefault last).outcome =
      .error .outOfCalendar := by decide +kernel
  have kept := back .silent t ["xx"] .localeDefault last friday "2026-10-16" undigited
    (by decide +kernel) (by decide +kernel) (by decide +kernel) (by decide +kernel)
  rw [lost] at kept
  cases kept

end Engine

end DatePhrase
