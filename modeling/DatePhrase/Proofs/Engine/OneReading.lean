import DatePhrase.Proofs.Engine.CommonMatch
import DatePhrase.Proofs.Grammar.Lockstep

/-! An engine with one casual grammar. The date comes from a reading into the future, the time of
day from one without bias and with the usual start of the week. Main statement: both come to the
first match of the former, since all readings from one instant go in lockstep. -/
namespace DatePhrase
open Text Calendar

namespace Casual

/-- Bias and week start move matches, and change neither which there are nor what they state. -/
theorem exists_readings (g : Casual) {now : Instant} (inside : now.date.Inside 14) (text : String)
    (weekStart : Weekday) :
    ∃ found, g.grammar.read text ⟨now, true, weekStart⟩ = .ok found ∧
      ∀ forward weekStart', ∃ found', g.grammar.read text ⟨now, forward, weekStart'⟩ = .ok found' ∧
        List.Forall₂ (Match.Alike SameCertainty) found found' := by
  have room := Options.hasRoom_of_inside inside
  obtain ⟨found, read⟩ := exists_read (g := g) (room true weekStart) text
  refine ⟨found, read, fun forward weekStart' => ?_⟩
  obtain ⟨found₁, found', read₁, read', pairs⟩ :=
    forall₂_read g (room true weekStart) (room forward weekStart') rfl text
  obtain rfl : found = found₁ := Except.ok.inj (read.symm.trans read₁)
  exact ⟨found', read', pairs⟩

end Casual

namespace Pool
variable {g : Grammar} {text : String} {o : Options} {found : List Match}

/-- The only vote of a single grammar is its first match. -/
theorem firsts_of_read (read : g.read text o = .ok found) :
    Pool.firsts [g] text o = found.head?.toList := by
  have first : g.first? text o = found.head? := by simp only [Grammar.first?, read]
  cases head : found.head? with
  | none => simp [firsts, first, head]
  | some m => simp [firsts, first, head]

theorem stays_of_read (read : g.read text o = .ok found) : Pool.Stays [g] text o := by
  intro h listed
  obtain rfl := List.mem_singleton.1 listed
  rw [read]
  exact nofun

end Pool

namespace Engine
variable {reader : PhraseReader} {t : Table} {languages : List String} {language : String}

theorem pool_of_alone (alone : supported t languages = [language]) (other : language ≠ "en") :
    (ofTable reader t languages).pool = [(Casual.ofTable t language).grammar] := by
  have known : t.hasLanguage language :=
    hasLanguage_of_supported (alone ▸ List.mem_singleton_self language)
  simp [ofTable, ofPool, alone, Grammar.ofLanguage?, known, other]

/-- What the first match of a text says, or the present instant if there is none. -/
def resolutionOf (now : Instant) : List Match → Resolution
  | [] => ⟨now, false⟩
  | m :: _ => ⟨m.start, m.certain.statesTime⟩

/-- With one language other than English, a text that no shape claims and that announces no week,
month or year is answered by its first match read into the future, date and time of day alike. Any
other reading from the same instant finds matches in the same places with the same certainty. -/
theorem resolve_of_alone (reader : PhraseReader) (t : Table) (languages : List String)
    (language text : String) (preference : WeekStart) (now : Instant)
    (alone : supported t languages = [language]) (other : language ≠ "en")
    (inside : now.date.Inside 14)
    (unclaimed : (ofTable reader t languages).vocabulary.recognize (normalize text) = none)
    (unannounced : (ofTable reader t languages).vocabulary.nextPeriod? (normalize text) = none) :
    let e := ofTable reader t languages
    let g := (Casual.ofTable t language).grammar
    ∃ found, g.read (normalize text) ⟨now, true, e.weekStart preference⟩ = .ok found ∧
      (e.resolve text preference now).outcome = .ok (resolutionOf now found) ∧
      ∀ forward weekStart, ∃ found',
        g.read (normalize text) ⟨now, forward, weekStart⟩ = .ok found' ∧
        List.Forall₂ (Match.Alike Casual.SameCertainty) found found' := by
  intro e g
  have pool : e.pool = [g] := pool_of_alone alone other
  obtain ⟨found, forward, readings⟩ := (Casual.ofTable t language).exists_readings inside
    (normalize text) (e.weekStart preference)
  obtain ⟨voted, (plain : g.read _ (.plain now _) = _), votes⟩ :=
    readings false (e.weekStart preference)
  obtain ⟨flagged, (usual : g.read _ (.plain now _) = _), flags⟩ :=
    readings false (e.weekStart .localeDefault)
  have period : Pool.periodStart e.vocabulary (normalize text) (e.weekStart preference) now =
      .ok none := by
    rw [Pool.periodStart, unannounced]
    rfl
  have date : (e.date text preference now).outcome = .ok (resolutionOf now found).date := by
    rw [date_of_no_point (by rw [recognizedPoint_of_none unclaimed]; rfl), pool]
    cases votes with
    | nil => exact Pool.resolve_of_no_firsts (Pool.stays_of_read plain) (Pool.firsts_of_read plain)
    | cons alike rest =>
      rw [Pool.resolve_of_no_period (Pool.stays_of_read plain) (Pool.stays_of_read forward) _ period,
        Pool.firsts_of_read forward]
      · rfl
      · rw [Pool.firsts_of_read plain]
        exact List.cons_ne_nil _ _
  have time : (e.hasTime text now).outcome = .ok (resolutionOf now found).hasTime := by
    rw [hasTime_of_unclaimed unclaimed, pool, Pool.outcome_mentionsTime (Pool.stays_of_read usual),
      Pool.firsts_of_read usual]
    cases flags with
    | nil => rfl
    | @cons m m' _ _ alike rest =>
      have same : m.certain = m'.certain := alike.stated
      simp [resolutionOf, same]
  exact ⟨found, forward, outcome_resolve date time, readings⟩

/-- On a Friday at four in the afternoon, three o'clock is on Saturday. -/
theorem resolve_of_alone_saturday :
    let t := (Table.empty.insert "de" "monday" "montag").insert "de" "at" "um"
    let e := ofTable .silent t ["de"]
    let friday : Instant := ⟨⟨20742, by decide, by decide⟩, ⟨16 * nanosPerHour, by decide, false⟩⟩
    let saturday : Instant := ⟨⟨20743, by decide, by decide⟩, ⟨15 * nanosPerHour, by decide, false⟩⟩
    (supported t ["de"] = ["de"] ∧ "de" ≠ "en" ∧ friday.date.Inside 14 ∧
        e.vocabulary.recognize (normalize "Um 3pm") = none ∧
        e.vocabulary.nextPeriod? (normalize "Um 3pm") = none) ∧
      (e.resolve "Um 3pm" .localeDefault friday).outcome = .ok ⟨saturday, true⟩ := by
  intro t e friday saturday
  have alone : supported t ["de"] = ["de"] := by decide +kernel
  have inside : friday.date.Inside 14 := by decide
  have unclaimed : e.vocabulary.recognize (normalize "Um 3pm") = none := by decide +kernel
  have unannounced : e.vocabulary.nextPeriod? (normalize "Um 3pm") = none := by decide +kernel
  obtain ⟨found, read, answer, -⟩ := resolve_of_alone .silent t ["de"] "de" "Um 3pm"
    .localeDefault friday alone (by decide) inside unclaimed unannounced
  have only : (Casual.ofTable t "de").grammar.read (normalize "Um 3pm")
      ⟨friday, true, e.weekStart .localeDefault⟩ = .ok [⟨3, "3pm", saturday, .clock⟩] := by
    decide +kernel
  obtain rfl := Except.ok.inj (read.symm.trans only)
  exact ⟨⟨alone, by decide, inside, unclaimed, unannounced⟩, answer⟩

end Engine

end DatePhrase
