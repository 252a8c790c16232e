import DatePhrase.Proofs.Phrase.OneShape

/-! A weekday of a chosen week with a time behind it, in the languages at hand. Words stand between
blanks, or touch where their script allows it, so the text divides into its words in one way only.
Main statement: such a phrase is recognized as the weekday of that week, with the text of the time
as the rest. -/
namespace DatePhrase
open Text Calendar

/-- The parts of a weekday of a chosen week before a time: a word that chooses the week, a gap,
which a word in a script without spaces may lack, a day name and an at word between gaps. -/
structure WeekdayAtParts (t : Table) (languages : List String) where
  choice : String
  gap : List Char
  name : String
  before : List Char
  opener : String
  behind : List Char
  week : WeekChoice
  day : Weekday
  chosen : choice ∈ t.words languages week.name
  gap_blank : AllBlank gap
  touching : gap = [] → Vocabulary.endsUnspaced choice
  named : name ∈ t.words languages day.name
  before_gap : IsGap before
  opening : opener ∈ t.words languages "at"
  behind_gap : IsGap behind

/-- The text that the parts make up with the text of a time behind them. -/
def WeekdayAtParts.text {t : Table} {languages : List String} (q : WeekdayAtParts t languages)
    (time : List Char) : List Char :=
  q.choice.toList ++ (q.gap ++ (q.name.toList ++ (q.before ++ (q.opener.toList ++
    (q.behind ++ time)))))

/-- The same parts in a list of languages that has more of them. -/
def WeekdayAtParts.mono {t : Table} {languages languages' : List String}
    (q : WeekdayAtParts t languages) (more : languages ⊆ languages') :
    WeekdayAtParts t languages' :=
  have kept : ∀ {key w}, w ∈ t.words languages key → w ∈ t.words languages' key := fun listed =>
    Table.mem_words_iff.2 ((Table.mem_words_iff.1 listed).imp fun _ h => ⟨more h.1, h.2⟩)
  { q with chosen := kept q.chosen, named := kept q.named, opening := kept q.opening }

@[simp] theorem WeekdayAtParts.text_mono {t : Table} {languages languages' : List String}
    (q : WeekdayAtParts t languages) (more : languages ⊆ languages') (time : List Char) :
    (q.mono more).text time = q.text time := rfl

/-- The text of a time: one line of letters that have no variants, with a digit at its start and no
blank at its end. -/
structure IsTimeText (time : List Char) : Prop where
  begins : ∃ d more, time = d :: more ∧ isDigit d
  tight : Tight time
  folded : AllFolded time
  line : ∀ c ∈ time, c ≠ '\n'

namespace IsTimeText
variable {time : List Char}

theorem stops (h : IsTimeText time) : Stops isBlank time := by
  obtain ⟨d, more, rfl, digit⟩ := h.begins
  exact stops_cons.2 (isBlank_of_isDigit digit)

theorem ne_nil (h : IsTimeText time) : time ≠ [] := by
  obtain ⟨d, more, rfl, -⟩ := h.begins
  exact List.cons_ne_nil d more

/-- Behind blanks the text is found again by trimming, wherever the blanks are taken to end. -/
theorem trimBlanks_eq (h : IsTimeText time) {gap gap' tail : List Char} (blank : AllBlank gap)
    (blank' : AllBlank gap') (same : gap ++ time = gap' ++ tail) : trimBlanks tail = time := by
  have trimmed : ∀ {x : List Char}, AllBlank x → trimBlanks (x ++ time) = time := by
    exact fun blank => trimBlanks_behind blank h.stops h.tight
  rcases List.append_eq_append_iff.1 same with ⟨x, rfl, parts⟩ | ⟨x, rfl, rfl⟩
  · cases x with
    | nil =>
      rw [List.nil_append] at parts
      rw [← parts, trimBlanks_eq_self h.stops h.tight]
    | cons c x =>
      -- the time does not begin with a blank
      have stops := h.stops
      rw [parts, List.cons_append, stops_cons, blank' c (by simp)] at stops
      cases stops
  · exact trimmed fun c hc => blank c (by simp [hc])

end IsTimeText

namespace Vocabulary
open Cut

variable {languages : List String}

/-- The words of the weekday shapes at hand stand under keys. -/
theorem exists_key {w : String} (h : w ∈ (ofTable Table.builtin languages).weekdayWords) :
    ∃ key, w ∈ Table.builtin.words languages key := by
  simp only [weekdayWords, List.mem_append, mem_spacedChoices, mem_touchingChoices,
    mem_dayWords] at h
  rcases h with (((⟨⟨week, h⟩, -⟩ | ⟨⟨week, h⟩, -⟩) | ⟨day, h⟩) | h) | h
  · exact ⟨_, h⟩
  · exact ⟨_, h⟩
  · exact ⟨_, h⟩
  · exact ⟨_, mem_arrange_words.1 h⟩
  · exact ⟨_, mem_arrange_words.1 h⟩

/-- A text of letters without variants has its weekday words as they are written. -/
theorem apart_weekdayWords (languages : List String) {text : List Char} (folded : AllFolded text) :
    Apart (ofTable Table.builtin languages).weekdayWords (String.ofList text).toList := by
  rw [String.toList_ofList]
  refine apart_of_folded (fun w hw => ?_) folded
  obtain ⟨key, written⟩ := exists_key hw
  exact folded_of_mem_words written

end Vocabulary

namespace WeekdayAtParts
open Cut Vocabulary

variable {languages : List String} (q : WeekdayAtParts Table.builtin languages) {time : List Char}

theorem folded (h : IsTimeText time) : AllFolded (q.text time) := by
  simp only [text, allFolded_append]
  exact ⟨folded_of_mem_words q.chosen, fun c hc => folded_of_isBlank (q.gap_blank c hc),
    folded_of_mem_words q.named, fun c hc => folded_of_isBlank (q.before_gap.2 c hc),
    folded_of_mem_words q.opening, fun c hc => folded_of_isBlank (q.behind_gap.2 c hc), h.folded⟩

theorem stops_text : Stops isBlank (q.text time) := Table.stops_word q.chosen

theorem tight_text (h : IsTimeText time) : Tight (q.text time) := by
  have nonempty := h.ne_nil
  rw [text, tight_append (by simp [nonempty]), tight_append (by simp [nonempty]),
    tight_append (by simp [nonempty]), tight_append (by simp [nonempty]),
    tight_append (by simp [nonempty]), tight_append nonempty]
  exact h.tight

/-- Every way to read the text as a weekday at a time reads its parts. -/
theorem eq_of_mem_cutWeekdayAt (known : ∀ l ∈ languages, l ∈ builtinCodes) (h : IsTimeText time)
    {choice day tail : List Char} (cut : (((choice, day), tail), []) ∈
      (ofTable Table.builtin languages).cutWeekdayAt (q.text time)) :
    choice = q.choice.toList ++ q.gap ∧ day = q.name.toList ∧ trimBlanks tail = time := by
  obtain ⟨front, g₁, opener, g₂, parts, blank, ⟨choosing, spelled⟩, ⟨gap₁, opens, gap₂⟩, -⟩ :=
    mem_cutWeekdayAt.1 cut
  simp only [List.append_assoc, List.append_nil] at parts
  obtain rfl := eq_nil_of_front q.chosen (List.prefix_append _ _) blank parts
  rw [List.nil_append] at parts
  have apart := apart_weekdayWords languages (q.folded h)
  have inside : ∀ c ∈ choice ++ (day ++ (g₁ ++ (opener ++ (g₂ ++ tail)))),
      c ∈ (String.ofList (q.text time)).toList := by
    rw [String.toList_ofList, parts]
    exact fun c hc => hc
  obtain ⟨p, gap, rfl, gap_blank, touching, week, chosen⟩ :=
    exists_of_isChoice apart (fun c hc => inside c (by simp [hc])) choosing
  obtain ⟨d, rfl, known_day, named⟩ :=
    exists_of_spells_day apart (fun c hc => inside c (by simp [hc])) spelled
  have openers : ∀ w ∈ (ofTable Table.builtin languages).clockIntro, AllFolded w.toList :=
    fun w hw => folded_of_mem_words (mem_arrange_words.1 hw)
  obtain ⟨a, arranged, rfl⟩ :=
    exists_of_spells_folded openers (fun c hc => q.folded h c (by simp [parts, hc])) opens
  have opening := mem_arrange_words.1 arranged
  simp only [text, List.append_assoc] at parts
  obtain ⟨rfl, rfl, behind⟩ := choice_unique known q.chosen chosen q.gap_blank q.touching
    (Table.stops_word q.named) gap_blank touching (Table.stops_word named) parts
  obtain ⟨same_day, behind⟩ := word_unique (solid_day known q.named) (solid_day known named)
    q.before_gap gap₁ behind
  obtain ⟨-, behind⟩ := run_unique behind q.before_gap.2 (Table.stops_word q.opening) gap₁.2
    (Table.stops_word opening)
  obtain ⟨-, behind⟩ := word_unique (solid_at known q.opening) (solid_at known opening)
    q.behind_gap gap₂ behind
  exact ⟨rfl, same_day.symm, h.trimBlanks_eq q.behind_gap.2 gap₂.2 behind⟩

theorem mem_cutWeekdayAt_text (h : IsTimeText time) :
    (((q.choice.toList ++ q.gap, q.name.toList), time), []) ∈
      (ofTable Table.builtin languages).cutWeekdayAt (q.text time) := by
  refine mem_cutWeekdayAt.2 ⟨[], q.before, q.opener.toList, q.behind, ?_, nofun,
    ⟨isChoice_of_word q.chosen q.gap_blank q.touching, spells_of_mem (mem_dayWords.2 ⟨_, q.named⟩)⟩,
    ⟨q.before_gap, spells_of_mem (mem_arrange_words.2 q.opening), q.behind_gap⟩, h.ne_nil, h.line⟩
  simp only [text, List.nil_append, List.append_assoc, List.append_nil]

theorem recognizeAs_weekdayAt (known : ∀ l ∈ languages, l ∈ builtinCodes) (h : IsTimeText time) :
    (ofTable Table.builtin languages).recognizeAs (String.ofList (q.text time)) .weekdayAt =
      some (.weekdayAt q.week q.day (String.ofList time)) := by
  obtain ⟨⟨⟨choice, day⟩, tail⟩, preferred⟩ :=
    Option.isSome_iff_exists.1 (all?_isSome_iff.2 ⟨_, q.mem_cutWeekdayAt_text h⟩)
  obtain ⟨rfl, rfl, trimmed⟩ := q.eq_of_mem_cutWeekdayAt known h (mem_of_all? preferred)
  have listed : asListed q.name.toList = q.name := asListed_of_folded (folded_of_mem_words q.named)
  have classified : (ofTable Table.builtin languages).choiceOf? (q.choice.toList ++ q.gap) =
      some q.week := by
    rw [choiceOf?, trimEnd_append (Table.tight_of_mem_words q.chosen) q.gap_blank,
      asListed_of_folded (folded_of_mem_words q.chosen), choice?_eq_some known q.chosen]
  simp only [recognizeAs, String.toList_ofList, preferred, classified, listed, trimmed,
    dayOf_of_lookup (lookup_day known q.named), Option.bind_eq_bind, Option.bind_some,
    Option.pure_def]

/-- The phrase is recognized as the weekday of the chosen week, with the time as the rest. -/
theorem recognize_eq (known : ∀ l ∈ languages, l ∈ builtinCodes) (h : IsTimeText time) :
    (ofTable Table.builtin languages).recognize (String.ofList (q.text time)) =
      some (.weekdayAt q.week q.day (String.ofList time)) :=
  recognize_of_recognizeAs known (q.recognizeAs_weekdayAt known h)

end WeekdayAtParts

end DatePhrase
