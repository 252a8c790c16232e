import DatePhrase.Proofs.Engine.InsideCalendar
import DatePhrase.Proofs.Grammar.KeptTime
import DatePhrase.Proofs.Pool.Arbitration

/-! The time flag of a weekday with more text behind it. The shape alone sets the flag; which time
of day the answer has is up to the grammars, which read the text behind the weekday. Main
statements: the flag is set for every such text, together with what the answer is; and it does not
tell whether any grammar states a time, since without one the answer keeps the present time. -/
namespace DatePhrase
open Text Calendar

namespace English

/-- The reader of phrases makes nothing of the text. -/
def Unread (reader : PhraseReader) (text : String) : Prop :=
  ∀ q : PhraseQuery, q.phrase = trim text → reader q = .unknown

theorem wholePhrase_of_unread {reader : PhraseReader} {text : String} {o : Options}
    (unread : Unread reader text) : wholePhrase reader text o = .ok none := by
  unfold wholePhrase
  dsimp only
  split
  · rfl
  · rw [unread _ rfl]

end English

namespace Casual

/-- Every match of a grammar of the pool comes from its rules where no phrase is read. -/
theorem keepsTime_of_ofLanguage? {reader : PhraseReader} {t : Table} {language : String}
    {g : Grammar} {text : String} {o : Options} {found : List Match}
    (made : Grammar.ofLanguage? reader t language = some g)
    (unread : English.Unread reader text) (read : g.read text o = .ok found) :
    ∀ m ∈ found, KeepsTime o ⟨m.start, m.certain⟩ := by
  have rules : ∀ {casual : Casual} {found : List Match},
      casual.grammar.read text o = .ok found → ∀ m ∈ found, KeepsTime o ⟨m.start, m.certain⟩ := by
    intro casual found read
    cases reading : casual.matches? text.toList o with
    | error e =>
      simp only [grammar, reading] at read
      cases read
    | ok kept =>
      simp only [grammar, reading] at read
      cases read
      exact forall_matches? (fun rule listed => says_keepsTime listed) reading
  unfold Grammar.ofLanguage? at made
  split at made
  · obtain rfl := Option.some.inj made
    split at read
    · obtain ⟨casual, first, read⟩ := exists_of_bind_eq_ok read
      rw [English.wholePhrase_of_unread unread] at read
      split at read
      · obtain rfl := Except.ok.inj read
        exact rules first
      · obtain rfl := Except.ok.inj read
        exact rules first
    · exact rules read
  · cases made

end Casual

namespace Engine

theorem keepsTime_of_mem_firsts {reader : PhraseReader} {t : Table} {languages : List String}
    {text : String} {o : Options} {m : Match} (unread : English.Unread reader text)
    (vote : m ∈ (ofTable reader t languages).pool.firsts text o) :
    Casual.KeepsTime o ⟨m.start, m.certain⟩ := by
  obtain ⟨g, listed, first⟩ := List.mem_filterMap.1 vote
  obtain ⟨language, -, made⟩ := List.mem_filterMap.1 listed
  unfold Grammar.first? at first
  split at first
  · rename_i found read
    exact Casual.keepsTime_of_ofLanguage? made unread read m (List.mem_of_mem_head? first)
  · cases first

/-- A weekday with more text behind it always sets the flag. The answer is the longest vote on that
text, read from the weekday, or the weekday itself; where no vote states a time or merely names a
coming period, and no phrase is read, the answer keeps the present time unless that is in a leap
second. -/
theorem resolve_of_weekdayAt (reader : PhraseReader) (t : Table) (languages : List String)
    (text rest : String) (preference : WeekStart) (now : Instant) (week : WeekChoice)
    (day : Weekday) (inside : now.date.Inside 14)
    (claimed : (ofTable reader t languages).vocabulary.recognize (normalize text) =
      some (.weekdayAt week day rest)) :
    let e := ofTable reader t languages
    ∃ base answer, inWeek week day now = .ok base ∧
      (e.resolve text preference now).outcome = .ok ⟨answer, true⟩ ∧
      let o := Options.plain base (e.weekStart preference)
      let votes := e.pool.firsts rest o
      (e.pool.mentionsTime rest o).outcome = .ok (votes.any (·.certain.statesTime)) ∧
      (votes = [] → answer = base) ∧
      (∀ m, e.pool.Elects rest o m → answer = m.start) ∧
      (now.time.leap = false → English.Unread reader rest → (∀ m ∈ votes,
        m.certain.statesTime = false ∧ Casual.namesPeriod m.certain = false) →
          answer.time = now.time) := by
  intro e
  obtain ⟨base, within⟩ := exists_inWeek week day inside
  let o := Options.plain base (e.weekStart preference)
  let votes := e.pool.firsts rest o
  let answer := ((Pool.longest? votes).map (·.start)).getD base
  have stays : e.pool.Stays rest o :=
    ofTable_stays reader t languages (hasRoom_inWeek inside within _) rest
  have point : (e.recognizedPoint (normalize text) (e.weekStart preference) now).outcome =
      .ok (some answer) := by
    rw [recognizedPoint_of_some claimed, outcome_point_weekdayAt within, Pool.outcome_best stays]
    rfl
  have flag : (e.hasTime text now).outcome = .ok true := by
    rw [hasTime_of_verdict claimed rfl]
    rfl
  refine ⟨base, answer, within, outcome_resolve (date_of_point point) flag,
    Pool.outcome_mentionsTime stays, ?_, ?_, ?_⟩
  · intro none
    change votes = [] at none
    simp only [answer, none]
    rfl
  · intro m elects
    have longest : Pool.longest? votes = some m := Pool.elects_iff.1 elects
    simp only [answer, longest]
    rfl
  · intro regular unread silent
    have kept := time_of_inWeek regular within
    rw [← kept]
    cases longest : Pool.longest? votes with
    | none => simp only [answer, longest, Option.map_none, Option.getD_none]
    | some m =>
      have vote := Pool.mem_of_longest? longest
      obtain ⟨untimed, dated⟩ := silent m vote
      simp only [answer, longest, Option.map_some, Option.getD_some]
      exact keepsTime_of_mem_firsts unread vote (kept ▸ regular) untimed dated

/-- No grammar understands "lunch", but the flag is set and the answer has the present time. -/
theorem resolve_of_weekdayAt_lunch :
    let t := ((Table.empty.insert "en" "next" "next").insert "en" "friday" "friday").insert
      "en" "at" "at"
    let e := ofTable .silent t ["en"]
    let ten : TimeOfDay := ⟨10 * nanosPerHour, by decide, false⟩
    let now : Instant := ⟨⟨20742, by decide, by decide⟩, ten⟩
    now.date.Inside 14 ∧
      e.vocabulary.recognize (normalize "Next Friday at lunch") =
        some (.weekdayAt .following .friday "lunch") ∧
      (e.resolve "Next Friday at lunch" .localeDefault now).outcome =
        .ok ⟨⟨⟨20749, by decide, by decide⟩, ten⟩, true⟩ := by
  intro t e ten now
  have inside : now.date.Inside 14 := by decide
  have claimed : e.vocabulary.recognize (normalize "Next Friday at lunch") =
      some (.weekdayAt .following .friday "lunch") := by decide +kernel
  let friday : Instant := ⟨⟨20749, by decide, by decide⟩, ten⟩
  have within : inWeek .following .friday now = .ok friday := by decide +kernel
  obtain ⟨base, answer, found, resolved, -, alone, -, -⟩ :=
    resolve_of_weekdayAt .silent t ["en"] "Next Friday at lunch" "lunch" .localeDefault now
      .following .friday inside claimed
  obtain rfl : friday = base := Except.ok.inj (within.symm.trans found)
  have unvoted : e.pool.firsts "lunch" (.plain friday (e.weekStart .localeDefault)) = [] := by
    decide +kernel
  obtain rfl := alone unvoted
  exact ⟨inside, claimed, resolved⟩

/-- The flag is not the grammars' verdict on the text behind the weekday. -/
theorem hasTime_without_stated_time :
    ¬ ∀ (reader : PhraseReader) (t : Table) (languages : List String) (text rest : String)
        (now base : Instant) (week : WeekChoice) (day : Weekday),
      let e := ofTable reader t languages
      now.date.Inside 14 →
      e.vocabulary.recognize (normalize text) = some (.weekdayAt week day rest) →
      inWeek week day now = .ok base →
      ((e.hasTime text now).outcome = .ok true ↔
        ∃ m ∈ e.pool.firsts rest (.plain base (e.weekStart .localeDefault)),
          m.certain.statesTime) := by
  intro truthful
  let t := ((Table.empty.insert "en" "next" "next").insert "en" "friday" "friday").insert
    "en" "at" "at"
  let e := ofTable .silent t ["en"]
  let now : Instant := ⟨⟨20742, by decide, by decide⟩, .midnight⟩
  let friday : Instant := ⟨⟨20749, by decide, by decide⟩, .midnight⟩
  have claimed : e.vocabulary.recognize (normalize "next friday at lunch") =
      some (.weekdayAt .following .friday "lunch") := by decide +kernel
  have flag : (e.hasTime "next friday at lunch" now).outcome = .ok true := by decide +kernel
  obtain ⟨m, vote, -⟩ := (truthful .silent t ["en"] "next friday at lunch" "lunch" now friday
    .following .friday (by decide) claimed (by decide +kernel)).1 flag
  have unvoted : e.pool.firsts "lunch" (.plain friday (e.weekStart .localeDefault)) = [] := by
    decide +kernel
  rw [unvoted] at vote
  cases vote

end Engine

end DatePhrase
