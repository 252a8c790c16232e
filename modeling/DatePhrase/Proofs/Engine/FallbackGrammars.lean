import DatePhrase.Proofs.Engine.Outcomes

/-! What the grammars of the pool cannot change. The pool is asked for a phrase without a point, for
the text behind a weekday, and for the time of day of a weekday range or of an unclaimed text.
Main statement: two engines that differ in their pools alone give the same ranges, and the same
date and time flag to what the fixed shapes settle, whatever the grammars do. -/
namespace DatePhrase
open Text Calendar

/-- Two continuations need to agree only on what the first part comes to. -/
theorem Answer.bind_congr {α β : Type} {x : Answer α} {f f' : α → Answer β}
    (same : ∀ a, x.outcome = .ok a → f a = f' a) : x >>= f = x >>= f' := by
  obtain ⟨outcome, notices⟩ := x
  cases outcome with
  | error fault => rfl
  | ok a => simp only [bind, same a rfl]

namespace Engine
variable {t : Table} {languages : List String} {p q : Pool}
variable {text : String} {preference : WeekStart} {weekStart : Weekday} {now : Instant}
variable {phrase : Recognized}

theorem point_of_pools (elsewhere : phrase.shape ≠ .weekdayAt) :
    (ofPool t languages p).point weekStart now phrase =
      (ofPool t languages q).point weekStart now phrase := by
  apply point_congr
  rintro week day rest rfl
  exact absurd rfl elsewhere

/-- Every shape but the weekday range has a verdict on the time of day. -/
theorem exists_verdict (elsewhere : phrase.shape ≠ .weekdayRange) :
    ∃ stated, timeVerdict? phrase = some stated := by
  cases phrase with
  | weekdayRange first last => exact absurd rfl elsewhere
  | _ => exact ⟨_, rfl⟩

theorem date_of_claimed {e : Engine}
    (claimed : e.vocabulary.recognize (normalize text) = some phrase) :
    e.date text preference now = (do
      match ← e.point (e.weekStart preference) now phrase with
      | some point => return point
      | none => e.pool.resolve e.vocabulary (normalize text) (e.weekStart preference) now) :=
  congrArg (· >>= _) (recognizedPoint_of_some claimed)

/-- The pool has no say in the date unless the phrase turns out to have no point. -/
theorem date_of_pools
    (claimed : (ofPool t languages p).vocabulary.recognize (normalize text) = some phrase)
    (elsewhere : phrase.shape ≠ .weekdayAt)
    (settled : ((ofPool t languages p).point ((ofPool t languages p).weekStart preference) now
      phrase).outcome ≠ .ok none) :
    (ofPool t languages p).date text preference now =
      (ofPool t languages q).date text preference now := by
  have points : (ofPool t languages q).point ((ofPool t languages q).weekStart preference) now
      phrase = (ofPool t languages p).point ((ofPool t languages p).weekStart preference) now
        phrase := point_of_pools elsewhere
  rw [date_of_claimed claimed, date_of_claimed (e := ofPool t languages q) claimed, points]
  refine Answer.bind_congr fun point reached => ?_
  cases point with
  | none => exact absurd reached settled
  | some i => rfl

theorem hasTime_of_pools
    (claimed : (ofPool t languages p).vocabulary.recognize (normalize text) = some phrase)
    (elsewhere : phrase.shape ≠ .weekdayRange) :
    (ofPool t languages p).hasTime text now = (ofPool t languages q).hasTime text now := by
  obtain ⟨stated, verdict⟩ := exists_verdict elsewhere
  rw [hasTime_of_verdict claimed verdict,
    hasTime_of_verdict (e := ofPool t languages q) claimed verdict]

/-- Fallback grammars leave alone what the fixed shapes settle: two engines with any two pools give
the same range to every text, the same date to a phrase that has a point and hands no text on, and
the same time flag to every phrase but a weekday range. -/
theorem answers_of_pools (t : Table) (languages : List String) (p q : Pool) (text : String)
    (preference : WeekStart) (now : Instant) :
    let e := ofPool t languages p
    let f := ofPool t languages q
    e.range text preference now = f.range text preference now ∧
    (∀ phrase i, e.vocabulary.recognize (normalize text) = some phrase →
      phrase.shape ≠ .weekdayAt →
      (e.point (e.weekStart preference) now phrase).outcome = .ok (some i) →
      (e.date text preference now).outcome = .ok i ∧
        f.date text preference now = e.date text preference now) ∧
    ∀ phrase, e.vocabulary.recognize (normalize text) = some phrase →
      phrase.shape ≠ .weekdayRange → e.hasTime text now = f.hasTime text now := by
  intro e f
  refine ⟨rfl, fun phrase i claimed elsewhere point => ⟨?_, ?_⟩, fun phrase claimed elsewhere => ?_⟩
  · apply date_of_point
    rw [recognizedPoint_of_some claimed, point]
  · have settled : (e.point (e.weekStart preference) now phrase).outcome ≠ .ok none := by
      rw [point]
      exact nofun
    exact (date_of_pools claimed elsewhere settled).symm
  · exact hasTime_of_pools claimed elsewhere

/-- Neither a grammar that fails nor one that reads every text as the present minute disturbs
"tomorrow". -/
theorem answers_of_pools_tomorrow :
    let friday : Instant := ⟨⟨20742, by decide, by decide⟩, .midnight⟩
    let saturday : Instant := ⟨⟨20743, by decide, by decide⟩, .midnight⟩
    let failing : Grammar := ⟨"en", fun _ _ => .error (.failed "unread")⟩
    let eager : Grammar := ⟨"en", fun text o => .ok [⟨0, text, o.reference, .clock⟩]⟩
    let t := Table.empty.insert "en" "tomorrow" "tomorrow"
    let e := ofPool t ["en"] [failing]
    let f := ofPool t ["en"] [eager, failing]
    let text := " Tomorrow "
    e.vocabulary.recognize (normalize text) = some (.immediate .tomorrow) ∧
      e.range text .localeDefault friday = f.range text .localeDefault friday ∧
      (e.date text .localeDefault friday).outcome = .ok saturday ∧
      f.date text .localeDefault friday = e.date text .localeDefault friday ∧
      e.hasTime text friday = f.hasTime text friday := by
  intro friday saturday failing eager t e f text
  have claimed : e.vocabulary.recognize (normalize text) = some (.immediate .tomorrow) := by
    decide +kernel
  have point : (e.point (e.weekStart .localeDefault) friday (.immediate .tomorrow)).outcome =
      .ok (some saturday) := by decide +kernel
  obtain ⟨ranges, dates, flags⟩ :=
    answers_of_pools t ["en"] [failing] [eager, failing] text .localeDefault friday
  obtain ⟨date, same⟩ := dates _ saturday claimed nofun point
  exact ⟨claimed, ranges, date, same, flags _ claimed nofun⟩

end Engine

end DatePhrase
