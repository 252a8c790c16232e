import DatePhrase.Pool
import DatePhrase.Proofs.Grammar.Room
import DatePhrase.Proofs.Phrase.Ranges

/-! What asking a pool comes to. A pool stays in the calendar over a text when none of its grammars
leaves it there; its votes are then the first matches of its grammars, in their order. Main
statement: away from the ends of the calendar it names an instant for every text. -/
namespace DatePhrase
open Calendar

namespace Grammar

/-- The first match of a grammar, none when it fails. -/
def first? (g : Grammar) (text : String) (o : Options) : Option Match :=
  match g.read text o with
  | .ok found => found.head?
  | .error _ => none

/-- A grammar that stays in the calendar votes for its first match. -/
theorem outcome_vote {g : Grammar} {text : String} {o : Options}
    (stays : g.read text o ≠ .error .outOfCalendar) :
    (g.vote text o).outcome = .ok (g.first? text o) := by
  unfold vote first?
  split
  · rename_i found reads
    rw [reads]
    rfl
  · rename_i message fails
    rw [fails]
    rfl
  · contradiction

end Grammar

namespace Pool

/-- No grammar of the pool leaves the calendar over a text. -/
def Stays (p : Pool) (text : String) (o : Options) : Prop :=
  ∀ g ∈ p, g.read text o ≠ .error .outOfCalendar

/-- The first matches of the grammars that have one. -/
def firsts (p : Pool) (text : String) (o : Options) : List Match :=
  p.filterMap (·.first? text o)

variable {p : Pool} {text : String} {o : Options}

theorem outcome_votes (stays : p.Stays text o) :
    (p.votes text o).outcome = .ok (p.firsts text o) := by
  have each : (p.mapM fun g : Grammar => g.vote text o).outcome =
      .ok (p.map fun g : Grammar => g.first? text o) := by
    rw [Answer.outcome_mapM]
    induction p with
    | nil => rfl
    | cons g p ih =>
      rw [List.mapM_cons, Grammar.outcome_vote (stays g (by simp)),
        ih fun h hh => stays h (by simp [hh])]
      rfl
  simp only [votes, firsts, Answer.outcome_bind, each]
  exact congrArg Except.ok List.filterMap_map

theorem outcome_best (stays : p.Stays text o) :
    (p.best text o).outcome = .ok (longest? (p.firsts text o)) := by
  simp only [best, Answer.outcome_bind, outcome_votes stays]
  rfl

theorem outcome_mentionsTime (stays : p.Stays text o) :
    (p.mentionsTime text o).outcome = .ok ((p.firsts text o).any (·.certain.statesTime)) := by
  simp only [mentionsTime, Answer.outcome_bind, outcome_votes stays]
  rfl

theorem exists_periodStart (v : Vocabulary) (text : String) (weekStart : Weekday) {now : Instant}
    (inside : now.date.Inside 14) : ∃ start, periodStart v text weekStart now = .ok start := by
  unfold periodStart
  split
  · exact ⟨_, rfl⟩
  · exact ⟨_, rfl⟩
  · obtain ⟨range, h⟩ := DateRange.exists_ofText v text weekStart now inside
    exact ⟨range.map (·.start.midnight), by rw [h]; rfl⟩
  · exact ⟨none, rfl⟩

variable {v : Vocabulary} {weekStart : Weekday} {now : Instant}

/-- Without a vote the text names the present instant. -/
theorem resolve_of_no_firsts (plain : p.Stays text (.plain now weekStart))
    (none : p.firsts text (.plain now weekStart) = []) :
    (p.resolve v text weekStart now).outcome = .ok now := by
  simp only [resolve, Answer.outcome_bind, outcome_votes plain, none]
  rfl

/-- With a vote a coming period goes before every match. -/
theorem resolve_of_period (plain : p.Stays text (.plain now weekStart))
    (some : p.firsts text (.plain now weekStart) ≠ []) {start : Instant}
    (found : periodStart v text weekStart now = .ok (.some start)) :
    (p.resolve v text weekStart now).outcome = .ok start := by
  simp [resolve, outcome_votes plain, some, found, bind, pure]

/-- With a vote and no coming period the longest match read into the future counts. -/
theorem resolve_of_no_period (plain : p.Stays text (.plain now weekStart))
    (forward : p.Stays text ⟨now, true, weekStart⟩)
    (some : p.firsts text (.plain now weekStart) ≠ [])
    (found : periodStart v text weekStart now = .ok none) :
    (p.resolve v text weekStart now).outcome =
      .ok (((longest? (p.firsts text ⟨now, true, weekStart⟩)).map (·.start)).getD now) := by
  simp [resolve, outcome_votes plain, outcome_best forward, some, found, bind, pure]

theorem exists_resolve (v : Vocabulary) (plain : p.Stays text (.plain now weekStart))
    (forward : p.Stays text ⟨now, true, weekStart⟩) (inside : now.date.Inside 14) :
    ∃ i, (p.resolve v text weekStart now).outcome = .ok i := by
  obtain ⟨period, hperiod⟩ := exists_periodStart v text weekStart inside
  by_cases some : p.firsts text (.plain now weekStart) = []
  · exact ⟨now, resolve_of_no_firsts plain some⟩
  · cases period with
    | some start => exact ⟨start, resolve_of_period plain some hperiod⟩
    | none => exact ⟨_, resolve_of_no_period plain forward some hperiod⟩

end Pool

end DatePhrase
