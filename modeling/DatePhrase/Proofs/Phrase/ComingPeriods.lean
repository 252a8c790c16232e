import DatePhrase.Grammar.Casual
import DatePhrase.Proofs.Phrase.WeekdayAt
import DatePhrase.Proofs.Text.Search

/-! A word for "next", a gap and a word for a week, a month or a year, in the languages at hand. The
words have no blanks, so the text divides into them in one way only. Main statements: such a text
announces its period, whatever other languages there are, and it has a fixed shape only where the
word for the period is a weekday's name too: the shape that reads the weekday of next week. -/
namespace DatePhrase
open Text Calendar

/-- The parts of a coming period: a next word, a gap and a word for a week, a month or a year. -/
structure PeriodParts (t : Table) (language : String) where
  opener : String
  gap : List Char
  word : String
  unit : TimeUnit
  opening : opener ∈ t.words [language] "next"
  isGap : IsGap gap
  named : word ∈ t.words [language] unit.name
  period : Casual.isPeriod unit

/-- The text that the parts of a coming period make up. -/
def PeriodParts.text {t : Table} {language : String} (p : PeriodParts t language) : List Char :=
  p.opener.toList ++ (p.gap ++ p.word.toList)

theorem Table.mem_words_of_mem {t : Table} {language key w : String} {languages : List String}
    (member : language ∈ languages) (listed : w ∈ t.words [language] key) :
    w ∈ t.words languages key :=
  mem_words_iff.2 ⟨language, member, listed⟩

namespace Vocabulary
open Cut

theorem period_spellings : ∀ l ∈ builtinCodes, ∀ u ∈ TimeUnit.all, Casual.isPeriod u →
    ∀ w ∈ spellings l u.name, ' ' ∉ w ∧ (∀ c ∈ w, isWordChar c) ∧
      ∀ k ∈ builtinCodes, ∀ v ∈ TimeUnit.all, w ∈ spellings k v.name → v = u := by
  decide +kernel

variable {languages : List String} {w : String} {gap s : List Char}

/-- Of the next words the one before a gap is taken, since it is the longest there. -/
theorem prefers_next (known : ∀ l ∈ languages, l ∈ builtinCodes)
    (listed : w ∈ Table.builtin.words languages "next") (isGap : IsGap gap) (folded : AllFolded s) :
    (oneOf (arrange (Table.builtin.words languages "next"))).Prefers (w.toList ++ (gap ++ s))
      w.toList (gap ++ s) := by
  have all : AllFolded (w.toList ++ (gap ++ s)) := by
    simp only [allFolded_append]
    exact ⟨folded_of_mem_words listed, fun c hc => folded_of_isBlank (isGap.2 c hc), folded⟩
  refine prefers_oneOf (pairwise_arrange _) (spells_of_mem (mem_arrange_words.2 listed)) ?_
  intro t spelled begins
  obtain ⟨v, arranged, rfl⟩ := exists_of_spells_folded
    (fun v hv => folded_of_mem_words (mem_arrange_words.1 hv))
    (fun c hc => all c (begins.subset hc)) spelled
  rcases List.prefix_or_prefix_of_prefix begins (List.prefix_append _ _) with shorter | ⟨x, longer⟩
  · exact shorter.length_le
  · obtain ⟨rest, parts⟩ := begins
    rw [← longer, List.append_assoc, List.append_cancel_left_eq] at parts
    have next : v ∈ Table.builtin.words languages WeekChoice.following.name :=
      mem_arrange_words.1 arranged
    have solid : ∀ c ∈ x, isBlank c = false := fun c hc =>
      solid_choice known next c (by simp [← longer, hc])
    obtain rfl := eq_nil_of_gap solid isGap parts.symm
    simp [← longer]

end Vocabulary

namespace PeriodParts
open Cut Vocabulary

variable {languages : List String} {language : String} (p : PeriodParts Table.builtin language)

theorem folded : AllFolded p.text := by
  simp only [text, allFolded_append]
  exact ⟨folded_of_mem_words p.opening, fun c hc => folded_of_isBlank (p.isGap.2 c hc),
    folded_of_mem_words p.named⟩

theorem begins : p.opener.toList <+: p.text := List.prefix_append _ _

theorem stops_text : Stops isBlank p.text := Table.stops_word p.opening

theorem tight_text : Tight p.text := by
  have nonempty : p.word.toList ≠ [] := by simpa using Table.ne_empty_of_mem_words p.named
  rw [text, tight_append (by simp [nonempty]), tight_append nonempty]
  exact Table.tight_of_mem_words p.named

theorem text_ne_nil : p.text ≠ [] := by simp [text, p.isGap.1]

theorem undigited : ∀ c ∈ p.text, isDigit c = false := by
  intro c hc
  simp only [text, List.mem_append] at hc
  rcases hc with front | blank | back
  · exact undigited_of_mem_spellings (mem_words_builtin.1 p.opening) c front
  · exact isDigit_of_isBlank (p.isGap.2 c blank)
  · exact undigited_of_mem_spellings (mem_words_builtin.1 p.named) c back

theorem word_spellings (known : language ∈ builtinCodes) :
    ' ' ∉ p.word.toList ∧ (∀ c ∈ p.word.toList, isWordChar c) ∧
      ∀ k ∈ builtinCodes, ∀ v ∈ TimeUnit.all, p.word.toList ∈ spellings k v.name → v = p.unit :=
  period_spellings language known p.unit p.unit.mem_all p.period _ (mem_words_builtin.1 p.named)

theorem solid_word (known : language ∈ builtinCodes) : ∀ c ∈ p.word.toList, isBlank c = false :=
  solid_of_mem_words p.named (p.word_spellings known).1

theorem chosen (member : language ∈ languages) :
    p.opener ∈ Table.builtin.words languages WeekChoice.following.name :=
  Table.mem_words_of_mem member p.opening

section Known
variable (member : language ∈ languages) (known : ∀ l ∈ languages, l ∈ builtinCodes)
include member known

/-- A next word in front leaves no shape that begins otherwise. -/
theorem recognizeAs_opened {shape : Shape} (other : shape.opener ≠ .choosing) :
    (ofTable Table.builtin languages).recognizeAs (String.ofList p.text) shape = none :=
  recognizeAs_of_choice known (p.chosen member) p.folded p.begins other

/-- No day word is the text, not even one with a blank. -/
theorem not_immediate {i : Immediate} {w : String}
    (listed : w ∈ Table.builtin.words languages i.name) : w.toList ≠ p.text := by
  intro same
  have opens : Opens languages .immediate p.text :=
    ⟨i.name, List.mem_map.2 ⟨i, i.mem_all, rfl⟩, w, listed, [], [], by simp [same],
      List.forall_mem_nil _, fun _ => stops_nil⟩
  cases eq_choosing_of_opens known (opens_of_choice (p.chosen member) p.begins) opens

/-- A choice of week and a weekday at the start of the text are the next word and the start of the
word behind it. -/
theorem eq_of_mem_cutDay {choice day rest : List Char}
    (way : ((choice, day), rest) ∈ (ofTable Table.builtin languages).cutDay p.text) :
    choice = p.opener.toList ++ p.gap ∧ p.word.toList = day ++ rest ∧
      ∃ (d : String) (known_day : Weekday), day = d.toList ∧
        d ∈ Table.builtin.words languages known_day.name := by
  obtain ⟨front, parts, blank, choosing, spelled⟩ := mem_cutDay.1 way
  simp only [List.append_assoc] at parts
  obtain rfl := eq_nil_of_front (p.chosen member) p.begins blank parts
  rw [List.nil_append] at parts
  have apart := apart_weekdayWords languages p.folded
  have inside : ∀ c ∈ choice ++ (day ++ rest), c ∈ (String.ofList p.text).toList := by
    rw [String.toList_ofList, parts]
    exact fun c hc => hc
  obtain ⟨q, gap, rfl, gap_blank, touching, week, chosen⟩ :=
    exists_of_isChoice apart (fun c hc => inside c (by simp [hc])) choosing
  obtain ⟨d, rfl, known_day, named⟩ :=
    exists_of_spells_day apart (fun c hc => inside c (by simp [hc])) spelled
  simp only [text, List.append_assoc] at parts
  obtain ⟨rfl, rfl, behind⟩ := choice_unique known (p.chosen member) chosen p.isGap.2
    (fun missing => absurd missing p.isGap.1) (Table.stops_of_mem_words p.named) gap_blank touching
    (Table.stops_word named) parts
  exact ⟨rfl, behind, d, known_day, rfl, named⟩

theorem recognizeAs_weekdayAt :
    (ofTable Table.builtin languages).recognizeAs (String.ofList p.text) .weekdayAt = none := by
  have unread : (ofTable Table.builtin languages).cutWeekdayAt.all? p.text = none := by
    rw [all?_eq_none_iff]
    rintro ⟨⟨choice, day⟩, tail⟩ way
    obtain ⟨_, mid, first, later⟩ := mem_bind.1 way
    obtain ⟨gap, back, second, -⟩ := mem_bind.1 later
    obtain ⟨rfl, isGap⟩ := mem_cutGap.1 second
    obtain ⟨-, behind, -⟩ := p.eq_of_mem_cutDay member known first
    -- the word for the period has no gap in it
    obtain ⟨c, blank⟩ := List.exists_mem_of_ne_nil _ isGap.1
    have solid := p.solid_word (known language member) c (by simp [behind, blank])
    rw [isGap.2 c blank] at solid
    cases solid
  simp only [recognizeAs, String.toList_ofList, unread, Option.bind_eq_bind, Option.bind_none]

/-- Every way to read the text as a weekday reads its two words. -/
theorem eq_of_mem_cutWeekday {choice day : List Char}
    (way : ((choice, day), []) ∈ (ofTable Table.builtin languages).cutWeekday p.text) :
    choice = p.opener.toList ++ p.gap ∧ day = p.word.toList ∧
      ∃ known_day : Weekday, p.word ∈ Table.builtin.words languages known_day.name := by
  obtain ⟨_, mid, first, later⟩ := mem_bind.1 way
  obtain ⟨gap, back, second, last⟩ := mem_bind.1 later
  obtain ⟨rfl, rfl⟩ := mem_pure.1 last
  obtain ⟨rfl, blank⟩ := mem_cutBlanks.1 second
  obtain ⟨rfl, behind, d, known_day, rfl, named⟩ := p.eq_of_mem_cutDay member known first
  rw [List.append_nil] at behind
  have missing : gap = [] := by
    cases gap with
    | nil => rfl
    | cons c gap =>
      have solid := p.solid_word (known language member) c (by simp [behind])
      rw [blank c (by simp)] at solid
      cases solid
  rw [missing, List.append_nil] at behind
  exact ⟨rfl, behind.symm, known_day, String.toList_inj.1 behind ▸ named⟩

/-- The text is not claimed by any shape unless its last word is a weekday's name. -/
theorem recognize_eq_none
    (unnamed : ∀ day : Weekday, p.word ∉ Table.builtin.words languages day.name) :
    (ofTable Table.builtin languages).recognize (String.ofList p.text) = none := by
  have unread : (ofTable Table.builtin languages).cutWeekday.all? p.text = none := by
    rw [all?_eq_none_iff]
    rintro ⟨choice, day⟩ way
    obtain ⟨-, -, known_day, named⟩ := p.eq_of_mem_cutWeekday member known way
    exact unnamed known_day named
  have weekday : (ofTable Table.builtin languages).recognizeAs (String.ofList p.text) .weekday =
      none := by
    simp only [recognizeAs, String.toList_ofList, unread, Option.bind_eq_bind, Option.bind_none]
  rw [recognize, List.findSome?_eq_none_iff]
  intro shape _
  by_cases other : shape.opener = .choosing
  · cases shape with
    | weekday => exact weekday
    | weekdayAt => exact p.recognizeAs_weekdayAt member known
    | immediate | combinedOffset | relativeOffset | weekdayRange => cases other
  · exact p.recognizeAs_opened member known other

/-- Where its last word is a weekday's name, the text is that weekday of next week. -/
theorem recognize_eq_weekday {day : Weekday}
    (named : p.word ∈ Table.builtin.words languages day.name) :
    (ofTable Table.builtin languages).recognize (String.ofList p.text) =
      some (.weekday .following day) := by
  have way : ((p.opener.toList ++ p.gap, p.word.toList), []) ∈
      (ofTable Table.builtin languages).cutWeekday p.text := by
    refine mem_cutWeekday.2 ⟨[], [], ?_, nofun, nofun, isChoice_of_word (p.chosen member)
      p.isGap.2 fun missing => absurd missing p.isGap.1, spells_of_mem (mem_dayWords.2 ⟨_, named⟩)⟩
    simp [text]
  obtain ⟨⟨choice, name⟩, preferred⟩ := Option.isSome_iff_exists.1 (all?_isSome_iff.2 ⟨_, way⟩)
  obtain ⟨rfl, rfl, -⟩ := p.eq_of_mem_cutWeekday member known (mem_of_all? preferred)
  have classified : (ofTable Table.builtin languages).choiceOf? (p.opener.toList ++ p.gap) =
      some .following := by
    rw [choiceOf?, trimEnd_append (Table.tight_of_mem_words p.opening) p.isGap.2,
      asListed_of_folded (folded_of_mem_words p.opening),
      choice?_eq_some known (p.chosen member)]
  have weekday : (ofTable Table.builtin languages).recognizeAs (String.ofList p.text) .weekday =
      some (.weekday .following day) := by
    simp only [recognizeAs, String.toList_ofList, preferred, classified,
      asListed_of_folded (folded_of_mem_words named), dayOf_of_lookup (lookup_day known named),
      Option.bind_eq_bind, Option.bind_some, Option.pure_def]
  exact recognize_of_recognizeAs known weekday

theorem lookup_word :
    (ofTable Table.builtin languages).units.lookup p.word = some p.unit := by
  refine lookup_of_unique (mem_units_ofTable.2 (Table.mem_words_of_mem member p.named))
    fun v h => ?_
  obtain ⟨k, other, written⟩ := exists_spelling known (mem_units_ofTable.1 h)
  exact (p.word_spellings (known language member)).2.2 k other v v.mem_all written

/-- The text announces its period, be it in one language or another. -/
theorem nextPeriod?_eq :
    (ofTable Table.builtin languages).nextPeriod? (String.ofList p.text) = some p.unit := by
  have filled : p.word.toList ≠ [] := by simpa using Table.ne_empty_of_mem_words p.named
  have word : (atLeastOne isWordChar).Prefers (p.word.toList ++ []) p.word.toList [] :=
    prefers_atLeastOne filled (p.word_spellings (known language member)).2.1 stops_nil
  rw [List.append_nil] at word
  have announced : (ofTable Table.builtin languages).cutNext.Prefers p.text p.word.toList [] :=
    (prefers_next known (p.chosen member) p.isGap (folded_of_mem_words p.named)).bind <|
      (prefers_atLeastOne p.isGap.1 p.isGap.2 (Table.stops_of_mem_words p.named)).bind word
  have period := p.period
  rw [nextPeriod?, String.toList_ofList, announced.scan p.text_ne_nil]
  simp only [List.head?_cons, Option.bind_eq_bind, Option.bind_some,
    asListed_of_folded (folded_of_mem_words p.named), p.lookup_word member known]
  cases unit : p.unit with
  | week | month | year => rfl
  | minute | hour | day =>
    rw [unit] at period
    cases period

end Known

end PeriodParts

end DatePhrase
