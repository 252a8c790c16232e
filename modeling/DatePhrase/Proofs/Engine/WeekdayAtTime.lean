import DatePhrase.Proofs.Engine.CasualAgreement
import DatePhrase.Proofs.Engine.CommonMatch
import DatePhrase.Proofs.Grammar.ClockTimes
import DatePhrase.Proofs.Phrase.WeekdayAt

/-! A weekday of a chosen week at a clock time. Every grammar of the languages at hand reads the
time alike, so all votes agree on it. Main statement: the phrase names that time on that weekday,
and it states a time of day. -/
namespace DatePhrase
open Text Calendar

namespace Casual
variable {t : List Char} {hour minute : Nat}

theorem WritesTime.lt (clock : WritesTime t hour minute) : hour < 24 ∧ minute < 60 := by
  cases clock with
  | colon _ _ day _ _ before => exact ⟨day, before⟩
  | @dial _ _ _ _ half h _ _ _ _ _ past =>
    have later : halfDay half ≤ 12 := by
      unfold halfDay
      split <;> decide
    refine ⟨by omega, ?_⟩
    cases past with
    | sharp => decide
    | past _ _ _ before => exact before

/-- A clock time is the text of a time. -/
theorem WritesTime.isTimeText (clock : WritesTime t hour minute) : IsTimeText t where
  begins := clock.begins
  tight := clock.tight
  folded := clock.folded
  line := by
    rintro c inside rfl
    rcases clock.chars _ inside with plain | ⟨-, line⟩ | mark
    · exact absurd plain (by decide)
    · exact line rfl
    · exact absurd mark (by decide)

end Casual

namespace Engine
open Vocabulary

variable {reader : PhraseReader} {languages : List String} {t : List Char} {hour minute : Nat}
variable {time : TimeOfDay} {o : Options}

/-- The match that every grammar finds in a clock time. -/
def clockMatch (t : List Char) (time : TimeOfDay) (o : Options) : Match :=
  ⟨0, String.ofList t, ⟨o.reference.date, time⟩, .clock⟩

theorem readsWhole_clock {language : String} (known : language ∈ builtinCodes)
    (clock : Casual.WritesTime t hour minute) (shows : time.Shows hour minute) (room : o.HasRoom)
    (plain : o.forward = false) :
    Casual.ReadsWhole Table.builtin language (String.ofList t) o (clockMatch t time o) where
  read := by
    apply Casual.read_eq_ok
    rw [String.toList_ofList]
    exact Casual.matches?_clock known clock shows room plain
  whole := rfl
  trimmed := by
    rw [trim, String.toList_ofList, trimBlanks_eq_self clock.isTimeText.stops clock.tight]

/-- All grammars of the languages at hand vote for the one match. -/
theorem outcome_best_clock (some : languages ≠ []) (known : ∀ l ∈ languages, l ∈ builtinCodes)
    (clock : Casual.WritesTime t hour minute) (shows : time.Shows hour minute) (room : o.HasRoom)
    (plain : o.forward = false) :
    ((ofTable reader Table.builtin languages).pool.best (String.ofList t) o).outcome =
      .ok (clockMatch t time o) := by
  have kept := supported_builtin some known
  refine outcome_best_of_common ?_ fun l member => ?_
  · obtain ⟨l, member⟩ := List.exists_mem_of_ne_nil _ some
    exact List.ne_nil_of_mem (kept ▸ List.mem_eraseDups.2 member)
  · rw [kept, List.mem_eraseDups] at member
    exact readsWhole_clock (known l member) clock shows room plain

/-- The phrase names the clock time on the day that the calendar finds for the weekday. -/
theorem outcome_resolve_weekdayAt (reader : PhraseReader) (preference : WeekStart)
    {q : WeekdayAtParts Table.builtin languages} {now base : Instant}
    (known : ∀ l ∈ languages, l ∈ builtinCodes) (clock : Casual.WritesTime t hour minute)
    (shows : time.Shows hour minute) (inside : now.date.Inside 14)
    (within : inWeek q.week q.day now = .ok base) :
    ((ofTable reader Table.builtin languages).resolve (String.ofList (q.text t)) preference
      now).outcome = .ok ⟨⟨base.date, time⟩, true⟩ := by
  have some : languages ≠ [] := by
    rintro rfl
    obtain ⟨l, member, -⟩ := Table.mem_words_iff.1 q.chosen
    cases member
  let e := ofTable reader Table.builtin languages
  have room := hasRoom_inWeek inside within (e.weekStart preference)
  have normal : normalize (String.ofList (q.text t)) = String.ofList (q.text t) := by
    refine lower_trim_of_folded ?_ ?_ ?_ <;> rw [String.toList_ofList]
    · exact q.folded clock.isTimeText
    · exact q.stops_text
    · exact q.tight_text clock.isTimeText
  have kept : languages ⊆ supported Table.builtin languages := fun l member => by
    rw [supported_builtin some known, List.mem_eraseDups]
    exact member
  have claimed : e.vocabulary.recognize (String.ofList (q.text t)) =
      .some (.weekdayAt q.week q.day (String.ofList t)) := by
    rw [← q.text_mono kept]
    refine (q.mono kept).recognize_eq (fun l member => known l ?_) clock.isTimeText
    rwa [supported_builtin some known, List.mem_eraseDups] at member
  have point : (e.point (e.weekStart preference) now
      (.weekdayAt q.week q.day (String.ofList t))).outcome = .ok (.some ⟨base.date, time⟩) := by
    rw [outcome_point_weekdayAt within, outcome_best_clock some known clock shows room rfl]
    rfl
  obtain ⟨date, stated⟩ := answers_of_phrase normal claimed point rfl
  exact outcome_resolve date stated

/-- A weekday of a chosen week at a clock time is that time on that day, with the time stated, unless
the present day ends with the present leap second. -/
theorem resolve_weekdayAt (reader : PhraseReader) (languages : List String)
    (q : WeekdayAtParts Table.builtin languages) (t : List Char) (hour minute : Nat)
    (preference : WeekStart) (now : Instant) (known : ∀ l ∈ languages, l ∈ builtinCodes)
    (clock : Casual.WritesTime t hour minute) (inside : now.date.Inside 14)
    (early : ¬ now.time.EndsDay) :
    ∃ i : Instant, ((ofTable reader Table.builtin languages).resolve (String.ofList (q.text t))
        preference now).outcome = .ok ⟨i, true⟩ ∧
      i.date.number = now.date.sunday + 7 * q.week.weeks + q.day.index ∧
      i.time.Shows hour minute := by
  obtain ⟨time, shows⟩ := TimeOfDay.exists_shows clock.lt.1 clock.lt.2
  obtain ⟨base, within⟩ := exists_inWeek q.week q.day inside
  have resolved := outcome_resolve_weekdayAt reader preference known clock shows inside within
  have number := number_of_inWeek early within
  exact ⟨⟨base.date, time⟩, resolved, number, shows⟩

/-- The long form of a Portuguese weekday at half past noon, with English asked first. -/
theorem resolve_weekdayAt_noon :
    let languages := ["en", "pt"]
    let now : Instant := ⟨⟨20742, by decide, by decide⟩, ⟨10 * nanosPerHour, by decide, false⟩⟩
    let text := "próxima segunda-feira @ 12.30 p.m."
    (∀ l ∈ languages, l ∈ builtinCodes) ∧
      Casual.WritesTime "12.30 p.m.".toList 12 30 ∧ now.date.Inside 14 ∧ ¬ now.time.EndsDay ∧
      ∃ i : Instant, ((ofTable .silent Table.builtin languages).resolve text .localeDefault
          now).outcome = .ok ⟨i, true⟩ ∧
        i.date.number = now.date.sunday + 7 * WeekChoice.following.weeks + Weekday.monday.index ∧
        i.time.Shows 12 30 := by
  intro languages now text
  have known : ∀ l ∈ languages, l ∈ builtinCodes := by decide
  have twelve : Writes ['1', '2'] 12 := ⟨by decide, by decide, by decide⟩
  have thirty : Writes ['3', '0'] 30 := ⟨by decide, by decide, by decide⟩
  have past : Casual.WritesMinutes ['.', '3', '0'] (some ['3', '0']) 30 :=
    .past (.inr rfl) thirty rfl (by decide)
  have line : ∀ c ∈ [' '], isBlank c ∧ c ≠ '\n' := by decide
  have listed : "p.m." ∈ Casual.meridiems := by decide
  have clock : Casual.WritesTime "12.30 p.m.".toList 12 30 :=
    .dial twelve (by decide) (by decide) (by decide) past line listed
  have inside : now.date.Inside 14 := by decide
  have early : ¬ now.time.EndsDay := by decide
  let q : WeekdayAtParts Table.builtin languages :=
    { choice := "próxima", gap := [' '], name := "segunda-feira", before := [' '], opener := "@"
      behind := [' '], week := .following, day := .monday
      chosen := Table.mem_words_iff.2 ⟨"pt", by decide, mem_words_builtin.2 (by decide +kernel)⟩
      gap_blank := by decide
      touching := nofun
      named := Table.mem_words_iff.2 ⟨"pt", by decide, mem_words_builtin.2 (by decide +kernel)⟩
      before_gap := by decide
      opening := Table.mem_words_iff.2 ⟨"en", by decide, mem_words_builtin.2 (by decide +kernel)⟩
      behind_gap := by decide }
  have written : String.ofList (q.text "12.30 p.m.".toList) = text := by decide +kernel
  obtain ⟨i, resolved, day, time⟩ := resolve_weekdayAt .silent languages q _ 12 30 .localeDefault
    now known clock inside early
  exact ⟨known, clock, inside, early, i, written ▸ resolved, day, time⟩

/-- In the leap second that ended a Saturday, Monday of the same week at nine is Tuesday at nine. -/
theorem not_weekdayAt_of_leap_second :
    ¬ ∀ (reader : PhraseReader) (languages : List String)
        (q : WeekdayAtParts Table.builtin languages) (t : List Char) (hour minute : Nat)
        (preference : WeekStart) (now : Instant), (∀ l ∈ languages, l ∈ builtinCodes) →
      Casual.WritesTime t hour minute → now.date.Inside 14 →
      ∃ i : Instant, ((ofTable reader Table.builtin languages).resolve (String.ofList (q.text t))
          preference now).outcome = .ok ⟨i, true⟩ ∧
        i.date.number = now.date.sunday + 7 * q.week.weeks + q.day.index := by
  intro stays
  let now : Instant := ⟨⟨17166, by decide, by decide⟩, ⟨86399500000000, by decide, true⟩⟩
  let languages := ["en"]
  have known : ∀ l ∈ languages, l ∈ builtinCodes := by decide
  let q : WeekdayAtParts Table.builtin languages :=
    { choice := "this", gap := [' '], name := "monday", before := [' '], opener := "at"
      behind := [' '], week := .current, day := .monday
      chosen := Table.mem_words_iff.2 ⟨"en", by decide, mem_words_builtin.2 (by decide +kernel)⟩
      gap_blank := by decide
      touching := nofun
      named := Table.mem_words_iff.2 ⟨"en", by decide, mem_words_builtin.2 (by decide +kernel)⟩
      before_gap := by decide
      opening := Table.mem_words_iff.2 ⟨"en", by decide, mem_words_builtin.2 (by decide +kernel)⟩
      behind_gap := by decide }
  have nine : Writes ['9'] 9 := ⟨by decide, by decide, by decide⟩
  have sharp : Writes ['0', '0'] 0 := ⟨by decide, by decide, by decide⟩
  have clock : Casual.WritesTime "9:00".toList 9 0 :=
    .colon nine (by decide) (by decide) sharp rfl (by decide)
  have inside : now.date.Inside 14 := by decide
  let tuesday : Instant := ⟨⟨17162, by decide, by decide⟩, ⟨500000000, by decide, false⟩⟩
  have within : inWeek q.week q.day now = .ok tuesday := by decide +kernel
  obtain ⟨time, shows⟩ := TimeOfDay.exists_shows clock.lt.1 clock.lt.2
  obtain ⟨_, resolved, day⟩ := stays .silent languages q _ 9 0 .localeDefault now known clock inside
  rw [outcome_resolve_weekdayAt .silent .localeDefault known clock shows inside within] at resolved
  cases resolved
  have monday : now.date.sunday + 7 * q.week.weeks + q.day.index = 17161 := by decide
  rw [monday] at day
  cases day

end Engine

end DatePhrase
