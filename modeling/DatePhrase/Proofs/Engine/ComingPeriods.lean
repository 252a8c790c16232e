import DatePhrase.Proofs.Calendar.CivilDates
import DatePhrase.Proofs.Engine.CasualAgreement
import DatePhrase.Proofs.Engine.CommonMatch
import DatePhrase.Proofs.Engine.PointAndRange
import DatePhrase.Proofs.Grammar.ComingPeriods

/-! The coming week, month or year in the languages at hand. The language of the words understands
the text, and the text announces its period, so the start of the period is named, whatever other
languages there are. Only a word that is a weekday's name in one of them is a weekday first. Main
statement: the start of the next month, of the next year or of the range of the coming week. -/
namespace DatePhrase
open Text Calendar Vocabulary

namespace PeriodParts
variable {languages : List String} {language : String} (p : PeriodParts Table.builtin language)
variable {now : Instant} {weekStart : Weekday}

theorem normalize_eq : Engine.normalize (String.ofList p.text) = String.ofList p.text := by
  refine lower_trim_of_folded ?_ ?_ ?_ <;> rw [String.toList_ofList]
  · exact p.folded
  · exact p.stops_text
  · exact p.tight_text

/-- The language finds the coming period as one match. -/
theorem readsWhole (known : language ∈ builtinCodes) {target : Instant}
    (room : (Options.plain now weekStart).HasRoom) (later : now.add? 1 p.unit = some target) :
    Casual.ReadsWhole Table.builtin language (String.ofList p.text) (.plain now weekStart)
      ⟨0, String.ofList p.text, target, Casual.certainOfPeriod p.unit⟩ where
  read := by
    apply Casual.read_eq_ok
    rw [String.toList_ofList]
    exact p.matches?_eq_ok known room later
  whole := rfl
  trimmed := by
    rw [trim, String.toList_ofList, trimBlanks_eq_self p.stops_text p.tight_text]

theorem isClock_unit : p.unit.isClock = false := by
  have period := p.period
  cases unit : p.unit with
  | day | week | month | year => rfl
  | minute | hour =>
    rw [unit] at period
    cases period

end PeriodParts

namespace Engine

/-- The day on which the coming month or year begins, or the range of the coming week. -/
def BeginsPeriod (e : Engine) (text : String) (preference : WeekStart) (now : Instant) (d : Date) :
    TimeUnit → Prop
  | .month => d.monthIndex = now.date.monthIndex + 1 ∧ d.day = 1
  | .year => d.civil = ⟨now.date.year + 1, 1, 1⟩
  | _ => now.date.nextAfter (e.weekStart preference) = .ok d ∧
    ∃ r, e.range text preference now = .ok (some r) ∧ r.start = d

variable {languages : List String} {language : String} {now : Instant}

theorem exists_periodStart {e : Engine} (p : PeriodParts Table.builtin language)
    (member : language ∈ languages) (known : ∀ l ∈ languages, l ∈ builtinCodes)
    (vocabulary : e.vocabulary = .ofTable Table.builtin languages) (preference : WeekStart)
    (inside : now.date.Inside 366) :
    ∃ d : Date, Pool.periodStart e.vocabulary (String.ofList p.text) (e.weekStart preference) now =
        .ok (some d.midnight) ∧
      e.BeginsPeriod (String.ofList p.text) preference now d p.unit := by
  have announced : e.vocabulary.nextPeriod? (String.ofList p.text) = some p.unit := by
    rw [vocabulary]
    exact p.nextPeriod?_eq member known
  have period := p.period
  cases unit : p.unit with
  | minute | hour | day =>
    rw [unit] at period
    cases period
  | month =>
    obtain ⟨d, begins, index, day⟩ := Instant.exists_startOfNextMonth? inside
    exact ⟨d, by rw [Pool.periodStart, announced, unit, begins]; rfl, index, day⟩
  | year =>
    obtain ⟨d, begins, civil⟩ := Instant.exists_startOfNextYear? inside
    exact ⟨d, by rw [Pool.periodStart, announced, unit, begins]; rfl, civil⟩
  | week =>
    rw [unit] at announced
    obtain ⟨start, stop, days, next, -⟩ := DateRange.nextWeek_eq_ok (e.weekStart preference)
      now.date (inside.mono (by decide))
    have unread : e.vocabulary.recognizeAs (String.ofList p.text) .weekdayRange = none := by
      rw [vocabulary]
      exact p.recognizeAs_opened member known (by decide)
    have range : DateRange.ofText e.vocabulary (String.ofList p.text) (e.weekStart preference) now =
        .ok (some (.between start stop)) := by
      simp only [DateRange.ofText, unread, announced, if_true, days]
      rfl
    have named : e.range (String.ofList p.text) preference now =
        .ok (some (.between start stop)) := by
      rw [Engine.range, p.normalize_eq, range]
    exact ⟨start, DateRange.periodStart_of_ofText range announced, next, _, named, rfl⟩

/-- A next word with a gap and a word for a week, a month or a year names midnight of the day on
which the coming one begins. Where the last word is also the name of a weekday in one of the
languages, the text is that weekday of next week instead. -/
theorem date_of_comingPeriod (reader : PhraseReader) (languages : List String) (language : String)
    (p : PeriodParts Table.builtin language) (preference : WeekStart) (now : Instant)
    (member : language ∈ languages) (known : ∀ l ∈ languages, l ∈ builtinCodes)
    (inside : now.date.Inside 366) :
    let e := ofTable reader Table.builtin languages
    let text := String.ofList p.text
    ((∀ day : Weekday, p.word ∉ Table.builtin.words languages day.name) →
      ∃ d : Date, (e.date text preference now).outcome = .ok d.midnight ∧
        e.BeginsPeriod text preference now d p.unit) ∧
    ∀ day : Weekday, p.word ∈ Table.builtin.words languages day.name →
      (e.date text preference now).outcome = inWeek .following day now := by
  intro e text
  have near : now.date.Inside 14 := inside.mono (by decide)
  have same : ∀ l, l ∈ supported Table.builtin languages ↔ l ∈ languages := fun l => by
    rw [supported_builtin (List.ne_nil_of_mem member) known, List.mem_eraseDups]
  have member' := (same language).2 member
  have known' : ∀ l ∈ supported Table.builtin languages, l ∈ builtinCodes :=
    fun l kept => known l ((same l).1 kept)
  have words : ∀ {key w}, w ∈ Table.builtin.words (supported Table.builtin languages) key ↔
      w ∈ Table.builtin.words languages key := fun {key w} => by
    rw [Table.mem_words_iff, Table.mem_words_iff]
    simp only [same]
  constructor
  · intro unnamed
    have unclaimed : e.vocabulary.recognize text = none :=
      p.recognize_eq_none member' known' fun day named => unnamed day (words.1 named)
    obtain ⟨d, found, begins⟩ :=
      exists_periodStart (e := e) p member' known' rfl preference inside
    obtain ⟨target, later⟩ := Instant.exists_add?_one inside p.isClock_unit
    have vote : _ ∈ e.pool.firsts text (.plain now (e.weekStart preference)) :=
      mem_firsts member' (p.readsWhole (known language member)
        (Options.hasRoom_plain (e.weekStart preference) near) later)
    refine ⟨d, ?_, begins⟩
    rw [date_of_no_point, p.normalize_eq]
    · exact Pool.resolve_of_period (stays_plain reader Table.builtin languages text _ near)
        (List.ne_nil_of_mem vote) found
    · rw [p.normalize_eq, recognizedPoint_of_none unclaimed]
      rfl
  · intro day named
    have claimed : e.vocabulary.recognize text = some (.weekday .following day) :=
      p.recognize_eq_weekday member' known' (words.2 named)
    obtain ⟨i, within⟩ := exists_inWeek .following day near
    rw [within]
    apply date_of_point
    rw [p.normalize_eq, recognizedPoint_of_some claimed, outcome_point_weekday, within]
    rfl

/-- The coming German week, with English asked first. -/
theorem date_of_comingPeriod_week :
    let e := ofTable .silent Table.builtin ["en", "de"]
    let now : Instant := ⟨⟨20742, by decide, by decide⟩, ⟨10 * nanosPerHour, by decide, false⟩⟩
    now.date.Inside 366 ∧ (∀ l ∈ ["en", "de"], l ∈ builtinCodes) ∧
      ∃ d : Date, (e.date "kommende  woche" .localeDefault now).outcome = .ok d.midnight ∧
        now.date.nextAfter (e.weekStart .localeDefault) = .ok d ∧
        ∃ r, e.range "kommende  woche" .localeDefault now = .ok (some r) ∧ r.start = d := by
  intro e now
  have inside : now.date.Inside 366 := by decide
  have known : ∀ l ∈ ["en", "de"], l ∈ builtinCodes := by decide
  let p : PeriodParts Table.builtin "de" :=
    { opener := "kommende", gap := [' ', ' '], word := "woche", unit := .week
      opening := mem_words_builtin.2 (by decide +kernel)
      isGap := by decide
      named := mem_words_builtin.2 (by decide +kernel)
      period := rfl }
  have unnamed : ∀ day ∈ Weekday.all, p.word ∉ Table.builtin.words ["en", "de"] day.name := by
    decide +kernel
  have written : String.ofList p.text = "kommende  woche" := by decide +kernel
  have named := (date_of_comingPeriod .silent ["en", "de"] "de" p .localeDefault now
    (by decide) known inside).1 fun day => unnamed day day.mem_all
  rw [written] at named
  obtain ⟨d, found, begins⟩ := named
  exact ⟨inside, known, d, found, begins⟩

/-- The English abbreviation of a month is the German one of Monday. -/
theorem date_of_comingPeriod_missed :
    ¬ ∀ (reader : PhraseReader) (languages : List String) (language opener word : String)
        (gap : List Char) (unit : TimeUnit) (preference : WeekStart) (now : Instant),
      language ∈ languages → (∀ l ∈ languages, l ∈ builtinCodes) →
      opener ∈ Table.builtin.words [language] "next" → AllBlank gap →
      (gap = [] → (Casual.ofTable Table.builtin language).bounded = false) →
      word ∈ Table.builtin.words [language] unit.name → Casual.isPeriod unit →
      now.date.Inside 731 →
      let e := ofTable reader Table.builtin languages
      let text := String.ofList (opener.toList ++ (gap ++ word.toList))
      ∃ d : Date, (e.date text preference now).outcome = .ok d.midnight ∧
        e.BeginsPeriod text preference now d unit := by
  intro begins
  let now : Instant := ⟨⟨20742, by decide, by decide⟩, ⟨10 * nanosPerHour, by decide, false⟩⟩
  let e := ofTable .silent Table.builtin ["en", "de"]
  let p : PeriodParts Table.builtin "en" :=
    { opener := "next", gap := [' '], word := "mo", unit := .month
      opening := mem_words_builtin.2 (by decide +kernel)
      isGap := by decide
      named := mem_words_builtin.2 (by decide +kernel)
      period := rfl }
  obtain ⟨d, found, -⟩ := begins .silent ["en", "de"] "en" p.opener p.word p.gap p.unit
    .localeDefault now (by decide) (by decide) p.opening p.isGap.2 nofun p.named p.period (by decide)
  have claimed : e.vocabulary.recognize (String.ofList p.text) =
      some (.weekday .following .monday) :=
    p.recognize_eq_weekday (by decide +kernel) (by decide +kernel) (by decide +kernel)
  have monday : (e.date (String.ofList p.text) .localeDefault now).outcome =
      .ok ⟨⟨20745, by decide, by decide⟩, ⟨10 * nanosPerHour, by decide, false⟩⟩ := by
    apply date_of_point
    rw [p.normalize_eq, recognizedPoint_of_some claimed, outcome_point_weekday]
    decide +kernel
  have same := congrArg (·.time.nanos) (Except.ok.inj (monday.symm.trans found))
  simp [Date.midnight, TimeOfDay.midnight, nanosPerHour, nanosPerMinute, nanosPerSecond] at same

end Engine

end DatePhrase
