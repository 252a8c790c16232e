import DatePhrase.Answer
import DatePhrase.Phrase.DateRange

/-! The grammars that are asked about a text no fixed shape claims. Each has one vote, its first
match, and the longest vote wins, the earliest grammar among equals. A grammar that fails has no
vote. -/
namespace DatePhrase
open Calendar

/-- Grammars in order of preference. -/
abbrev Pool := List Grammar

/-- The vote of a grammar: its first match, if it has one. -/
def Grammar.vote (g : Grammar) (text : String) (o : Options) : Answer (Option Match) :=
  match g.read text o with
  | .ok found => pure found.head?
  | .error (.failed message) => do
    Answer.note (.excluded g.language message)
    return none
  | .error .outOfCalendar => ⟨.error .outOfCalendar, []⟩

namespace Pool

/-- All votes, in the order of the grammars. -/
def votes (p : Pool) (text : String) (o : Options) : Answer (List Match) := do
  return (← p.mapM (·.vote text o)).filterMap id

/-- The first of the longest matches. -/
def longest? : List Match → Option Match
  | [] => none
  | m :: rest =>
    match longest? rest with
    | none => some m
    | some n => if m.length < n.length then some n else some m

def best (p : Pool) (text : String) (o : Options) : Answer (Option Match) := do
  return longest? (← p.votes text o)

/-- Whether any vote states a time of day. -/
def mentionsTime (p : Pool) (text : String) (o : Options) : Answer Bool := do
  return (← p.votes text o).any (·.certain.statesTime)

/-- The start of the week, month or year that a text announces. -/
def periodStart (v : Vocabulary) (text : String) (weekStart : Weekday) (now : Instant) :
    Except Fault (Option Instant) :=
  match v.nextPeriod? text with
  | some .month => pure now.startOfNextMonth?
  | some .year => pure now.startOfNextYear?
  | some .week => do return (← DateRange.ofText v text weekStart now).map (·.start.midnight)
  | _ => pure none

/-- The instant that a text names: now if no grammar understands it, the start of a coming period,
or else the best match with forward bias. -/
def resolve (p : Pool) (v : Vocabulary) (text : String) (weekStart : Weekday) (now : Instant) :
    Answer Instant := do
  let plain ← p.votes text (.plain now weekStart)
  if plain.isEmpty then return now
  match ← periodStart v text weekStart now with
  | some start => return start
  | none =>
    let forward ← p.best text ⟨now, true, weekStart⟩
    return (forward.map (·.start)).getD now

end Pool

end DatePhrase
