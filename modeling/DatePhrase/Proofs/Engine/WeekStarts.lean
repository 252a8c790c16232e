import DatePhrase.Proofs.Engine.InsideCalendar
import DatePhrase.Proofs.Grammar.WeekStarts

/-! What the first day of the week decides. It reaches the grammars, which do not look at it, the
reader of phrases, which sees whether it is Monday, and the range of the coming week. Main
statement: a text that announces no coming week has one date and one range under two preferences,
provided that both come to Monday or neither does where English is among the languages. -/
namespace DatePhrase
open Text Calendar

namespace DateRange

theorem ofText_of_not_week {v : Vocabulary} {text : String}
    (unannounced : v.nextPeriod? text ≠ some .week) (w w' : Weekday) (now : Instant) :
    ofText v text w now = ofText v text w' now := by
  simp only [ofText, if_neg unannounced]

end DateRange

namespace Pool
variable {p : Pool} {w w' : Weekday}

/-- No grammar of the pool tells the two first days apart. -/
def Blind (p : Pool) (w w' : Weekday) : Prop := ∀ g ∈ p, g.Blind w w'

theorem votes_of_blind (blind : p.Blind w w') (text : String) (now : Instant) (forward : Bool) :
    p.votes text ⟨now, forward, w⟩ = p.votes text ⟨now, forward, w'⟩ := by
  have each : p.mapM (fun g : Grammar => g.vote text ⟨now, forward, w⟩) =
      p.mapM fun g : Grammar => g.vote text ⟨now, forward, w'⟩ := by
    refine mapM_congr fun g listed => ?_
    rw [Grammar.vote, Grammar.vote, blind g listed text now forward]
  rw [votes, votes, each]

theorem best_of_blind (blind : p.Blind w w') (text : String) (now : Instant) (forward : Bool) :
    p.best text ⟨now, forward, w⟩ = p.best text ⟨now, forward, w'⟩ := by
  rw [best, best, votes_of_blind blind]

theorem periodStart_of_not_week {v : Vocabulary} {text : String}
    (unannounced : v.nextPeriod? text ≠ some .week) (w w' : Weekday) (now : Instant) :
    periodStart v text w now = periodStart v text w' now := by
  unfold periodStart
  split
  · rfl
  · rfl
  · contradiction
  · rfl

theorem resolve_of_blind (blind : p.Blind w w') {v : Vocabulary} {text : String}
    (unannounced : v.nextPeriod? text ≠ some .week) (now : Instant) :
    p.resolve v text w now = p.resolve v text w' now := by
  simp only [resolve, Options.plain, votes_of_blind blind, best_of_blind blind,
    periodStart_of_not_week unannounced w w']

end Pool

namespace Engine
variable {e : Engine} {w w' : Weekday} {text : String} {preference preference' : WeekStart}

theorem point_of_blind (blind : e.pool.Blind w w') (now : Instant) (phrase : Recognized) :
    e.point w now phrase = e.point w' now phrase :=
  point_congr fun _ _ rest _ i => Pool.best_of_blind blind rest i false

/-- For grammars that do not tell two preferences apart, only the coming week does. -/
theorem date_of_blind (blind : e.pool.Blind (e.weekStart preference) (e.weekStart preference'))
    (unannounced : e.vocabulary.nextPeriod? (normalize text) ≠ some .week) (now : Instant) :
    e.date text preference now = e.date text preference' now := by
  have points : e.recognizedPoint (normalize text) (e.weekStart preference) now =
      e.recognizedPoint (normalize text) (e.weekStart preference') now := by
    simp only [recognizedPoint, point_of_blind blind]
  simp only [date, points, Pool.resolve_of_blind blind unannounced]

theorem range_of_not_week (unannounced : e.vocabulary.nextPeriod? (normalize text) ≠ some .week)
    (now : Instant) : e.range text preference now = e.range text preference' now :=
  DateRange.ofText_of_not_week unannounced _ _ now

variable {reader : PhraseReader} {t : Table} {languages : List String}

theorem blind_pool (mondays : "en" ∈ supported t languages → (w = .monday ↔ w' = .monday)) :
    (ofTable reader t languages).pool.Blind w w' := by
  intro g listed
  obtain ⟨language, member, made⟩ := List.mem_filterMap.1 listed
  exact Grammar.blind_of_ofLanguage? made fun english => mondays (english ▸ member)

/-- The first day of the week decides over the coming week alone: any other text has the same date
and the same range under two preferences, if with English among the languages both come to Monday
or neither does. -/
theorem answers_of_weekStarts (reader : PhraseReader) (t : Table) (languages : List String)
    (text : String) (preference preference' : WeekStart) (now : Instant)
    (inside : now.date.Inside 14)
    (mondays : "en" ∈ (ofTable reader t languages).languages →
      ((ofTable reader t languages).weekStart preference = .monday ↔
        (ofTable reader t languages).weekStart preference' = .monday))
    (unannounced :
      (ofTable reader t languages).vocabulary.nextPeriod? (normalize text) ≠ some .week) :
    let e := ofTable reader t languages
    (∃ i, (e.date text preference now).outcome = .ok i ∧
      (e.date text preference' now).outcome = .ok i) ∧
    ∃ r, e.range text preference now = .ok r ∧ e.range text preference' now = .ok r := by
  intro e
  have dates : e.date text preference now = e.date text preference' now :=
    date_of_blind (blind_pool mondays) unannounced now
  have ranges : e.range text preference now = e.range text preference' now :=
    range_of_not_week unannounced now
  obtain ⟨i, date⟩ := exists_date reader t languages text preference inside
  obtain ⟨r, range⟩ := DateRange.exists_ofText e.vocabulary (normalize text)
    (e.weekStart preference) now inside
  exact ⟨⟨i, date, dates ▸ date⟩, r, range, ranges ▸ range⟩

/-- A reader of phrases that knows weeks from Monday apart is no hindrance between Sunday and
Wednesday. -/
theorem answers_of_weekStarts_wednesday :
    let friday : Instant := ⟨⟨20742, by decide, by decide⟩, .midnight⟩
    let reader : PhraseReader := fun q => if q.monday then .broken else .span q.now q.now
    let e := ofTable reader (Table.empty.insert "en" "next" "next") ["en"]
    let text := "Next quarter"
    friday.date.Inside 14 ∧
      ("en" ∈ e.languages →
        (e.weekStart .localeDefault = .monday ↔ e.weekStart (.on .wednesday) = .monday)) ∧
      e.vocabulary.nextPeriod? (normalize text) ≠ some .week ∧
      (∃ i, (e.date text .localeDefault friday).outcome = .ok i ∧
        (e.date text (.on .wednesday) friday).outcome = .ok i) ∧
      ∃ r, e.range text .localeDefault friday = .ok r ∧
        e.range text (.on .wednesday) friday = .ok r := by
  intro friday reader e text
  have inside : friday.date.Inside 14 := by decide
  have mondays : "en" ∈ e.languages →
      (e.weekStart .localeDefault = .monday ↔ e.weekStart (.on .wednesday) = .monday) := by
    decide +kernel
  have unannounced : e.vocabulary.nextPeriod? (normalize text) ≠ some .week := by decide +kernel
  exact ⟨inside, mondays, unannounced, answers_of_weekStarts reader
    (Table.empty.insert "en" "next" "next") ["en"] text .localeDefault (.on .wednesday) friday
    inside mondays unannounced⟩

end Engine

end DatePhrase
