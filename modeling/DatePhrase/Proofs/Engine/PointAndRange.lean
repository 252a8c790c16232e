import DatePhrase.Proofs.Engine.InsideCalendar
import DatePhrase.Proofs.Phrase.Shapes

/-! When the point of a text is the start of its range. A weekday range names the same day either
way. The coming week begins where the range does, provided that no other shape claims the text and
some grammar understands it: a text that nobody understands names the present instant, though its
range may be found. -/
namespace DatePhrase
open Text Calendar

/-- Some grammar of the pool finds a match in the text. -/
def Pool.understands (p : Pool) (text : String) (o : Options) : Bool :=
  p.any fun g => (g.first? text o).isSome

theorem Pool.firsts_eq_nil_iff {p : Pool} {text : String} {o : Options} :
    p.firsts text o = [] ↔ p.understands text o = false := by
  simp [firsts, understands]

namespace DateRange
variable {v : Vocabulary} {text : String} {weekStart : Weekday} {now : Instant} {r : DateRange}

/-- Without a weekday range only the coming week is a range. -/
theorem nextPeriod?_of_ofText (found : ofText v text weekStart now = .ok (some r))
    (unread : v.recognizeAs text .weekdayRange = none) : v.nextPeriod? text = some .week := by
  simp only [ofText, unread] at found
  split at found
  · assumption
  · cases found

theorem ofText_of_weekdayRange {first last : Weekday}
    (recognized : v.recognize text = some (.weekdayRange first last)) :
    ofText v text weekStart now = some <$> ofWeekdays first last now := by
  have read := Vocabulary.recognizeAs_of_recognize recognized
  simp only [Recognized.shape] at read
  simp only [ofText, read]

theorem periodStart_of_ofText (found : ofText v text weekStart now = .ok (some r))
    (week : v.nextPeriod? text = some .week) :
    Pool.periodStart v text weekStart now = .ok (some r.start.midnight) := by
  simp only [Pool.periodStart, week, found]
  rfl

end DateRange

namespace Engine
variable {reader : PhraseReader} {t : Table} {languages : List String}
variable {text : String} {preference : WeekStart} {now : Instant} {r : DateRange}

theorem date_of_weekdayRange {e : Engine} {first last : Weekday}
    (found : e.range text preference now = .ok (some r))
    (recognized : e.vocabulary.recognize (normalize text) = some (.weekdayRange first last)) :
    (e.date text preference now).outcome = .ok ⟨r.start, now.time⟩ := by
  rw [Engine.range, DateRange.ofText_of_weekdayRange recognized] at found
  apply date_of_point
  rw [recognizedPoint_of_some recognized, outcome_point_weekdayRange]
  cases days : DateRange.ofWeekdays first last now with
  | error e => simp [days, Functor.map, Except.map] at found
  | ok days' => simp_all [Functor.map, Except.map]

/-- Where no phrase has a point and the coming week is announced, both begin on one day. -/
theorem date_of_comingWeek (inside : now.date.Inside 14)
    (found : (ofTable reader t languages).range text preference now = .ok (some r))
    (no_point : ((ofTable reader t languages).recognizedPoint (normalize text)
      ((ofTable reader t languages).weekStart preference) now).outcome = .ok none)
    (week : (ofTable reader t languages).vocabulary.nextPeriod? (normalize text) = some .week) :
    ((ofTable reader t languages).date text preference now).outcome =
      .ok (if (ofTable reader t languages).pool.understands (normalize text)
          (.plain now ((ofTable reader t languages).weekStart preference))
        then r.start.midnight else now) := by
  have stays := stays_plain reader t languages (normalize text)
    ((ofTable reader t languages).weekStart preference) inside
  rw [date_of_no_point no_point]
  split
  · rename_i understood
    refine Pool.resolve_of_period stays ?_ (DateRange.periodStart_of_ofText found week)
    rw [ne_eq, Pool.firsts_eq_nil_iff, understood]
    decide
  · rename_i unknown
    exact Pool.resolve_of_no_firsts stays (Pool.firsts_eq_nil_iff.2 (by simpa using unknown))

/-- Point and range of a text begin on one day when the range is the first shape that claims the
text, or else when the text announces the coming week and some grammar understands it. -/
theorem date_of_range (reader : PhraseReader) (t : Table) (languages : List String)
    (text : String) (preference : WeekStart) (now : Instant) (r : DateRange)
    (inside : now.date.Inside 14)
    (found : (ofTable reader t languages).range text preference now = .ok (some r)) :
    let e := ofTable reader t languages
    let weekStart := e.weekStart preference
    let start := if e.pool.understands (normalize text) (.plain now weekStart)
      then r.start.midnight else now
    match e.vocabulary.recognize (normalize text) with
    | some (.weekdayRange _ _) => (e.date text preference now).outcome = .ok ⟨r.start, now.time⟩
    | some phrase => ∃ point, (e.point weekStart now phrase).outcome = .ok point ∧
        match point with
        | some i => (e.date text preference now).outcome = .ok i
        | none => e.vocabulary.nextPeriod? (normalize text) = some .week →
            (e.date text preference now).outcome = .ok start
    | none => (e.date text preference now).outcome = .ok start := by
  intro e weekStart start
  split
  · rename_i first last recognized
    exact date_of_weekdayRange found recognized
  · rename_i phrase _ recognized
    obtain ⟨point, hpoint⟩ := exists_point reader t languages weekStart inside phrase
    have settled : (e.recognizedPoint (normalize text) weekStart now).outcome = .ok point := by
      rw [recognizedPoint_of_some recognized, hpoint]
    refine ⟨point, hpoint, ?_⟩
    cases point with
    | some i => exact date_of_point settled
    | none => exact date_of_comingWeek inside found settled
  · rename_i unrecognized
    have unread := Vocabulary.recognizeAs_of_not_recognized unrecognized .weekdayRange
    exact date_of_comingWeek inside found (by rw [recognizedPoint_of_none unrecognized]; rfl)
      (DateRange.nextPeriod?_of_ofText found unread)

/-- An English "next" before a German word for week. -/
theorem date_of_range_missed :
    ¬ ∀ (reader : PhraseReader) (t : Table) (languages : List String) (text : String)
        (preference : WeekStart) (now : Instant) (r : DateRange), now.date.Inside 14 →
      (ofTable reader t languages).range text preference now = .ok (some r) →
      ∃ i, ((ofTable reader t languages).date text preference now).outcome = .ok i ∧
        i.date = r.start := by
  intro agree
  let t := (Table.empty.insert "de" "week" "woche").insert "en" "next" "next"
  let friday : Instant := ⟨⟨20742, by decide, by decide⟩, .midnight⟩
  have unknown : ((ofTable .silent t ["de", "en"]).date "next woche" .localeDefault
      friday).outcome = .ok friday := by decide +kernel
  obtain ⟨i, hi, same⟩ := agree .silent t ["de", "en"] "next woche" .localeDefault friday
    (.between ⟨20745, by decide, by decide⟩ ⟨20751, by decide, by decide⟩) (by decide)
    (by decide +kernel)
  rw [unknown] at hi
  obtain rfl := Except.ok.inj hi
  exact absurd same (by decide)

/-- Among German words alone the phrase has a grammar that understands it. -/
theorem date_of_range_german :
    let t := (Table.empty.insert "de" "week" "woche").insert "de" "next" "nächste"
    let friday : Instant := ⟨⟨20742, by decide, by decide⟩, .midnight⟩
    let week : DateRange :=
      .between ⟨20745, by decide, by decide⟩ ⟨20751, by decide, by decide⟩
    let e := ofTable .silent t ["de"]
    friday.date.Inside 14 ∧ e.range "nächste woche" .localeDefault friday = .ok (some week) ∧
      (e.date "nächste woche" .localeDefault friday).outcome = .ok week.start.midnight := by
  intro t friday week e
  have inside : friday.date.Inside 14 := by decide
  have found : e.range "nächste woche" .localeDefault friday = .ok (some week) := by
    decide +kernel
  have unrecognized : e.vocabulary.recognize (normalize "nächste woche") = none := by
    decide +kernel
  have understood : e.pool.understands (normalize "nächste woche")
      (.plain friday (e.weekStart .localeDefault)) := by decide +kernel
  have agreed := date_of_range .silent t ["de"] "nächste woche" .localeDefault friday week
    inside found
  simp only [show ofTable .silent t ["de"] = e from rfl, unrecognized, understood,
    if_true] at agreed
  exact ⟨inside, found, agreed⟩

end Engine

end DatePhrase
