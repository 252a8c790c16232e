import DatePhrase.Proofs.Grammar.DayWordsAndOffsets
import DatePhrase.Proofs.Phrase.ComingPeriods

/-! How the casual grammar of a language reads a coming week, month or year. The rule for periods
prefers to read all of the text, and no other rule reads it as a whole: it has no digit, no day word
begins with a next word, and no weekday's name has a blank in it. Main statement: the text is one
match, of the instant one unit later. -/
namespace DatePhrase
open Text Calendar

namespace Casual
variable {t : Table} {language w : String} {unit : TimeUnit}

/-- What a coming period states. -/
def certainOfPeriod (unit : TimeUnit) : Certainty :=
  if unit = .year then .ofList [.year] else .ofList [.year, .month]

theorem mem_periodWords (entry : (ofTable t language).units.lookup w = some unit)
    (period : isPeriod unit) : w ∈ (ofTable t language).periodWords := by
  have listed : w ∈ t.words [language] unit.name := mem_units.1 (mem_of_lookup entry)
  have word : w ∈ (ofTable t language).units.map (·.1) :=
    List.mem_map.2 ⟨(w, unit), mem_units.2 listed, rfl⟩
  have kept : ((ofTable t language).units.lookup w).any isPeriod := by simp [entry, period]
  exact Vocabulary.mem_arrange.2
    ⟨List.mem_filter.2 ⟨word, kept⟩, Table.ne_empty_of_mem_words listed⟩

theorem periodMeaning_eq_ok {g : Casual} {now target : Instant} (weekStart : Weekday)
    (folded : AllFolded w.toList) (entry : g.units.lookup w = some unit)
    (later : now.add? 1 unit = some target) :
    g.periodMeaning w.toList (.plain now weekStart) =
      .ok (some ⟨target, certainOfPeriod unit⟩) := by
  simp only [periodMeaning, Vocabulary.asListed_of_folded folded, entry, Options.plain, later,
    Option.bind_eq_bind, Option.bind_some]
  rfl

/-- A rule for words and times reads a text without digits as a whole only if it is a word. -/
theorem not_mem_timedRule {g : Casual} {words : List String} {text : List Char}
    {meaning : List Char → Option (List Char) → Meaning} (listed : ∀ w ∈ words, AllFolded w.toList)
    (folded : AllFolded text) (undigited : ∀ c ∈ text, isDigit c = false)
    (other : ∀ w ∈ words, w.toList ≠ text) (m : Meaning) :
    (m, []) ∉ g.timedRule words meaning text := by
  intro way
  obtain ⟨part, mid, first, later⟩ := Cut.mem_bind.1 way
  obtain ⟨time, back, second, last⟩ := Cut.mem_bind.1 later
  obtain ⟨-, rfl⟩ := Cut.mem_pure.1 last
  obtain ⟨rfl, spelled⟩ := Cut.mem_oneOf_iff.1 first
  obtain ⟨-, rfl⟩ := of_mem_cutTrailing (fun c hc => undigited c (by simp [hc])) second
  obtain ⟨w, known, rfl⟩ := Cut.exists_of_spells_folded listed
    (fun c hc => folded c (by simp [hc])) spelled
  exact other w known (List.append_nil _).symm

end Casual

namespace PeriodParts
open Cut Vocabulary Casual

variable {language : String} (p : PeriodParts Table.builtin language) {o : Options}
variable {stated : Stated}

theorem lookup_unit (known : language ∈ builtinCodes) :
    (Casual.ofTable Table.builtin language).units.lookup p.word = some p.unit := by
  refine lookup_of_unique (Casual.mem_units.2 p.named) fun u h => ?_
  exact (p.word_spellings known).2.2 language known u u.mem_all
    (mem_words_builtin.1 (Casual.mem_units.1 h))

/-- The parts of a coming period fit the rule for periods one by one. -/
theorem prefers_periodRule (known : language ∈ builtinCodes) :
    Cut.Prefers (Casual.ofTable Table.builtin language).periodRule p.text
      ((Casual.ofTable Table.builtin language).periodMeaning p.word.toList) [] := by
  have stops := Table.stops_of_mem_words p.named
  have space : (Casual.ofTable Table.builtin language).cutSpace.Prefers
      (p.gap ++ p.word.toList) p.gap p.word.toList := by
    unfold cutSpace
    split
    · exact prefers_atLeastOne p.isGap.1 p.isGap.2 stops
    · exact prefers_many p.isGap.2 stops
  have unit : (oneOf (Casual.ofTable Table.builtin language).periodWords).Prefers p.word.toList
      p.word.toList [] :=
    prefers_oneOf_whole (pairwise_arrange _)
      (spells_of_mem (mem_periodWords (p.lookup_unit known) p.period))
  exact (prefers_next (by simpa using known) p.opening p.isGap
    (folded_of_mem_words p.named)).bind <| space.bind <| unit.bind prefers_pure

theorem agrees_dayWordRule (known : language ∈ builtinCodes) (room : o.HasRoom) :
    (Casual.ofTable Table.builtin language).Agrees p.text o stated
      (Casual.ofTable Table.builtin language).dayWordRule := by
  have listed : (Casual.ofTable Table.builtin language).dayWordRule ∈
      (Casual.ofTable Table.builtin language).rules := by simp [rules]
  refine agrees_of_stays listed (stays_of_mem_rules room listed)
    (not_mem_timedRule (fun w known => ?_) p.folded p.undigited fun w listed => ?_)
  · obtain ⟨i, h⟩ := Casual.mem_immediateWords.1 known
    exact folded_of_mem_words h
  · obtain ⟨i, h⟩ := Casual.mem_immediateWords.1 listed
    exact p.not_immediate (List.mem_singleton_self language) (by simpa using known) h

theorem agrees_weekdayRule (known : language ∈ builtinCodes) (room : o.HasRoom) :
    (Casual.ofTable Table.builtin language).Agrees p.text o stated
      (Casual.ofTable Table.builtin language).weekdayRule := by
  have listed : (Casual.ofTable Table.builtin language).weekdayRule ∈
      (Casual.ofTable Table.builtin language).rules := by simp [rules]
  refine agrees_of_stays listed (stays_of_mem_rules room listed)
    (not_mem_timedRule (fun w known => ?_) p.folded p.undigited fun w listed same => ?_)
  · obtain ⟨d, h⟩ := Casual.mem_dayWords.1 known
    exact folded_of_mem_words h
  · -- the name of a weekday has no gap in it
    obtain ⟨d, h⟩ := Casual.mem_dayWords.1 listed
    obtain ⟨c, blank⟩ := List.exists_mem_of_ne_nil _ p.isGap.1
    have solid := solid_day (by simpa using known) h c (by simp [same, text, blank])
    rw [p.isGap.2 c blank] at solid
    cases solid

/-- A coming period is one match, of the instant one unit later. -/
theorem matches?_eq_ok (known : language ∈ builtinCodes) {now target : Instant}
    {weekStart : Weekday} (room : (Options.plain now weekStart).HasRoom)
    (later : now.add? 1 p.unit = some target) :
    (Casual.ofTable Table.builtin language).matches? p.text (.plain now weekStart) =
      .ok [⟨0, String.ofList p.text, target, certainOfPeriod p.unit⟩] := by
  have whole := p.prefers_periodRule known
  have meant := periodMeaning_eq_ok weekStart (folded_of_mem_words p.named)
    (p.lookup_unit known) later
  exact matches?_of_whole (by simp [rules]) whole p.text_ne_nil meant
    (agrees_rules rfl (fun c hc => p.undigited c (List.mem_of_mem_head? hc))
      (p.agrees_dayWordRule known room) (p.agrees_weekdayRule known room)
      (agrees_offsetRule p.undigited) (agrees_of_whole whole p.text_ne_nil meant))

end PeriodParts

end DatePhrase
