import DatePhrase.Proofs.Phrase.Openers
import DatePhrase.Proofs.Phrase.Shapes
import DatePhrase.Proofs.Text.Letters

/-! Each text has one fixed shape at most. Shapes that begin alike are told apart by what follows:
one count or two, blanks or an at word behind the weekday. Main statement: for the languages at
hand no two shapes fit one text, so the order in which they are tried makes no difference. -/
namespace DatePhrase
open Text Calendar

/-- Where one function at most has an answer, any order of asking finds the same. -/
theorem findSome?_of_exclusive {α β : Type} {f : α → Option β} {xs ys : List α}
    (only : ∀ a b, (f a).isSome → (f b).isSome → a = b) (first : ∀ a, a ∈ xs)
    (second : ∀ a, a ∈ ys) : xs.findSome? f = ys.findSome? f := by
  cases found : xs.findSome? f with
  | none =>
    rw [eq_comm, List.findSome?_eq_none_iff]
    exact fun a _ => List.findSome?_eq_none_iff.1 found a (first a)
  | some b =>
    obtain ⟨a, -, answer⟩ := List.exists_of_findSome?_eq_some found
    have some : (ys.findSome? f).isSome :=
      List.findSome?_isSome_iff.2 ⟨a, second a, by rw [answer]; rfl⟩
    obtain ⟨c, found'⟩ := Option.isSome_iff_exists.1 some
    obtain ⟨a', -, answer'⟩ := List.exists_of_findSome?_eq_some found'
    obtain rfl := only a a' (by rw [answer]; rfl) (by rw [answer']; rfl)
    rw [found', ← answer, ← answer']

namespace Vocabulary
open Cut

/-- The digits 0 to 9, as a class. -/
def isPlain (c : Char) : Bool := decide (IsPlainDigit c)

theorem isPlain_of_blank {g : List Char} (blank : AllBlank g) : ∀ c ∈ g, isPlain c = false := by
  intro c hc
  apply decide_eq_false
  intro plain
  have digit := isDigit_of_plain plain
  rw [isDigit_of_isBlank (blank c hc)] at digit
  cases digit

section Offsets
variable {t : Table} {languages : List String} {text : String} (undigited : t.Undigited)
include undigited

theorem isPlain_of_spells {key : String} {part : List Char}
    (spelled : Spells (arrange (t.words languages key)) part) : ∀ c ∈ part, isPlain c = false := by
  intro c hc
  apply decide_eq_false
  exact not_plainDigit_of_spells
    (fun w listed => undigited.clear (mem_arrange_words.1 listed)) spelled c hc

theorem isPlain_of_spells_unit {part : List Char}
    (spelled : Spells (ofTable t languages).unitWords part) : ∀ c ∈ part, isPlain c = false := by
  intro c hc
  apply decide_eq_false
  refine not_plainDigit_of_spells (fun w listed => ?_) spelled c hc
  obtain ⟨unit, h⟩ := mem_unitWords.1 listed
  exact undigited.clear h

/-- In front of the first count stands no digit. -/
theorem isPlain_of_front {before within gap : List Char} (blank : AllBlank before)
    (opens : Spells (ofTable t languages).within within) (isGap : IsGap gap) :
    ∀ c ∈ before ++ (within ++ gap), isPlain c = false := by
  simp only [List.mem_append]
  rintro c (hc | hc | hc)
  · exact isPlain_of_blank blank c hc
  · exact isPlain_of_spells undigited opens c hc
  · exact isPlain_of_blank isGap.2 c hc

/-- A text with one count has one run of digits. -/
theorem exists_count_of_relativeOffset {phrase : Recognized}
    (claimed : (ofTable t languages).recognizeAs text .relativeOffset = some phrase) :
    ∃ front digits back, text.toList = front ++ (digits ++ back) ∧
      (∀ c ∈ front, isPlain c = false) ∧ (digits ≠ [] ∧ ∀ c ∈ digits, isPlain c) ∧
      ∀ c ∈ back, isPlain c = false := by
  simp only [recognizeAs, Option.bind_eq_bind, Option.bind_eq_some_iff, Prod.exists,
    offsetOf?_eq_some_iff] at claimed
  obtain ⟨digits, unit, way, _, ⟨_, writes, -⟩, -⟩ := claimed
  obtain ⟨before, within, g₁, g₂, after, parts, ⟨blank, gap₁, tail⟩, opens, -, blank₂, counted⟩ :=
    mem_cutRelative.1 (mem_of_all? way)
  refine ⟨before ++ (within ++ g₁), digits, g₂ ++ (unit ++ after), ?_,
    isPlain_of_front undigited blank opens gap₁,
    ⟨writes.1, fun c hc => decide_eq_true (writes.2.1 c hc)⟩, ?_⟩
  · simpa only [List.append_assoc, List.append_nil] using parts
  · simp only [List.mem_append]
    rintro c (hc | hc | hc)
    · exact isPlain_of_blank blank₂ c hc
    · exact isPlain_of_spells_unit undigited counted c hc
    · exact isPlain_of_blank tail c hc

/-- A text with two counts has another run of digits behind the first. -/
theorem exists_counts_of_combinedOffset {phrase : Recognized}
    (claimed : (ofTable t languages).recognizeAs text .combinedOffset = some phrase) :
    ∃ front digits middle digits' back,
      text.toList = front ++ (digits ++ (middle ++ (digits' ++ back))) ∧
      (∀ c ∈ front, isPlain c = false) ∧ (digits ≠ [] ∧ ∀ c ∈ digits, isPlain c) ∧
      (middle ≠ [] ∧ ∀ c ∈ middle, isPlain c = false) ∧
      digits' ≠ [] ∧ ∀ c ∈ digits', isPlain c := by
  simp only [recognizeAs, Option.bind_eq_bind, Option.bind_eq_some_iff, Prod.exists,
    offsetOf?_eq_some_iff] at claimed
  obtain ⟨digits, unit, digits', unit', way, _, ⟨_, writes, -⟩, _, ⟨_, writes', -⟩, -⟩ := claimed
  obtain ⟨before, within, g₁, g₂, g₃, joining, g₄, g₅, after, parts,
    ⟨blank, gap₁, gap₃, gap₄, -⟩, ⟨opens, joins⟩, ⟨-, blank₂, counted⟩, -⟩ :=
    mem_cutCombined.1 (mem_of_all? way)
  refine ⟨before ++ (within ++ g₁), digits, g₂ ++ (unit ++ (g₃ ++ (joining ++ g₄))), digits',
    g₅ ++ (unit' ++ after), ?_, isPlain_of_front undigited blank opens gap₁,
    ⟨writes.1, fun c hc => decide_eq_true (writes.2.1 c hc)⟩, ⟨by simp [gap₃.1], ?_⟩,
    writes'.1, fun c hc => decide_eq_true (writes'.2.1 c hc)⟩
  · simpa only [List.append_assoc, List.append_nil] using parts
  · simp only [List.mem_append]
    rintro c (hc | hc | hc | hc | hc)
    · exact isPlain_of_blank blank₂ c hc
    · exact isPlain_of_spells_unit undigited counted c hc
    · exact isPlain_of_blank gap₃.2 c hc
    · exact isPlain_of_spells undigited joins c hc
    · exact isPlain_of_blank gap₄.2 c hc

/-- Over words without digits no text has both one count and two. -/
theorem not_relativeOffset_and_combinedOffset {one two : Recognized}
    (relative : (ofTable t languages).recognizeAs text .relativeOffset = some one)
    (combined : (ofTable t languages).recognizeAs text .combinedOffset = some two) : False := by
  obtain ⟨front, digits, back, parts, clear, ⟨some, all⟩, behind⟩ :=
    exists_count_of_relativeOffset undigited relative
  obtain ⟨front', digits₁, middle, digits₂, rest, parts', clear', ⟨some₁, all₁⟩, ⟨between, quiet⟩,
    some₂, all₂⟩ := exists_counts_of_combinedOffset undigited combined
  have stops : Stops isPlain back := fun c hc => behind c (List.mem_of_mem_head? hc)
  have stops' : Stops isPlain (middle ++ (digits₂ ++ rest)) :=
    (stops_append between).2 fun c hc => quiet c (List.mem_of_mem_head? hc)
  obtain ⟨-, -, rfl⟩ := first_run_unique (parts.symm.trans parts') clear some all stops clear'
    some₁ all₁ stops'
  obtain ⟨c, second⟩ := List.exists_mem_of_ne_nil _ some₂
  have none := behind c (by simp [second])
  rw [all₂ c second] at none
  cases none

end Offsets

section Weekdays
variable {languages : List String} {text : String}

theorem exists_day_of_spells {part : List Char}
    (spelled : Spells (ofTable Table.builtin languages).dayWords part) :
    ∃ (day : Weekday) (d : String), d ∈ Table.builtin.words languages day.name ∧
      part.map fold = d.toList := by
  obtain ⟨d, listed, same⟩ := map_fold_of_spells (fun w hw => by
    obtain ⟨day, h⟩ := mem_dayWords.1 hw
    exact folded_of_mem_words h) spelled
  obtain ⟨day, h⟩ := mem_dayWords.1 listed
  exact ⟨day, d, h, same⟩

/-- A weekday of a chosen week divides a text in one way into the words up to the weekday and what
stands behind it, when that begins with a blank. -/
theorem rest_unique_of_day (known : ∀ l ∈ languages, l ∈ builtinCodes)
    {before choice day rest before' choice' day' rest' : List Char} (blank : AllBlank before)
    (choosing : (ofTable Table.builtin languages).IsChoice choice)
    (named : Spells (ofTable Table.builtin languages).dayWords day)
    (ends : Stops (fun c => !isBlank c) rest) (blank' : AllBlank before')
    (choosing' : (ofTable Table.builtin languages).IsChoice choice')
    (named' : Spells (ofTable Table.builtin languages).dayWords day')
    (ends' : Stops (fun c => !isBlank c) rest')
    (same : before ++ (choice.map fold ++ (day.map fold ++ rest)) =
      before' ++ (choice'.map fold ++ (day'.map fold ++ rest'))) : rest = rest' := by
  obtain ⟨week, p, gap, chosen, eq_choice, blank_gap, touching⟩ := exists_choice_of_isChoice choosing
  obtain ⟨week', p', gap', chosen', eq_choice', blank_gap', touching'⟩ :=
    exists_choice_of_isChoice choosing'
  obtain ⟨_, d, weekday, eq_day⟩ := exists_day_of_spells named
  obtain ⟨_, d', weekday', eq_day'⟩ := exists_day_of_spells named'
  rw [eq_choice, eq_choice', eq_day, eq_day', List.append_assoc, List.append_assoc] at same
  obtain ⟨-, same⟩ := run_unique same blank (Table.stops_word chosen) blank'
    (Table.stops_word chosen')
  obtain ⟨-, -, same⟩ := choice_unique known chosen chosen' blank_gap touching
    (Table.stops_word weekday) blank_gap' touching' (Table.stops_word weekday') same
  have solid : ∀ c ∈ d.toList, !isBlank c := fun c hc => by simp [solid_day known weekday c hc]
  have solid' : ∀ c ∈ d'.toList, !isBlank c := fun c hc => by simp [solid_day known weekday' c hc]
  exact (run_unique same solid ends solid' ends').2

/-- Behind the weekday a text has blanks or an at word, not both. -/
theorem not_weekday_and_weekdayAt (known : ∀ l ∈ languages, l ∈ builtinCodes)
    {bare timed : Recognized}
    (weekday : (ofTable Table.builtin languages).recognizeAs text .weekday = some bare)
    (weekdayAt : (ofTable Table.builtin languages).recognizeAs text .weekdayAt = some timed) :
    False := by
  simp only [recognizeAs, Option.bind_eq_bind, Option.bind_eq_some_iff, Prod.exists]
    at weekday weekdayAt
  obtain ⟨_, _, way, -⟩ := weekday
  obtain ⟨_, _, _, way', -⟩ := weekdayAt
  obtain ⟨before, after, parts, blank, tail, choosing, named⟩ :=
    mem_cutWeekday.1 (mem_of_all? way)
  obtain ⟨before', g₁, intro, g₂, parts', blank', ⟨choosing', named'⟩, ⟨gap₁, opens, -⟩, -⟩ :=
    mem_cutWeekdayAt.1 (mem_of_all? way')
  obtain ⟨w, arranged, opener⟩ := map_fold_of_spells
    (fun w hw => folded_of_mem_words (mem_arrange_words.1 hw)) opens
  have introduced := mem_arrange_words.1 arranged
  have ends : Stops (fun c => !isBlank c) after := fun c hc => by
    simp [tail c (List.mem_of_mem_head? hc)]
  have ends' : ∀ {more}, Stops (fun c => !isBlank c) (g₁ ++ more) := fun {more} =>
    (stops_append gap₁.1).2 fun c hc => by simp [gap₁.2 c (List.mem_of_mem_head? hc)]
  have same := congrArg (List.map fold) (parts.symm.trans parts')
  simp only [List.map_append, List.append_assoc, List.append_nil, map_fold_of_blank blank,
    map_fold_of_blank blank', map_fold_of_blank tail, map_fold_of_blank gap₁.2, opener] at same
  have behind := rest_unique_of_day known blank choosing named ends blank' choosing' named' ends'
    same
  obtain ⟨c, inside⟩ := List.exists_mem_of_ne_nil w.toList
    (by simpa using Table.ne_empty_of_mem_words introduced)
  have solid := solid_at known introduced c inside
  rw [tail c (by simp [behind, inside])] at solid
  cases solid

/-- Shapes with the same opener are those with one count or two and those with or without a time
behind the weekday. -/
theorem shape_unique (known : ∀ l ∈ languages, l ∈ builtinCodes) {k k' : Shape}
    (claimed : ((ofTable Table.builtin languages).recognizeAs text k).isSome)
    (claimed' : ((ofTable Table.builtin languages).recognizeAs text k').isSome) : k = k' := by
  obtain ⟨phrase, claimed⟩ := Option.isSome_iff_exists.1 claimed
  obtain ⟨phrase', claimed'⟩ := Option.isSome_iff_exists.1 claimed'
  have opener : k.opener = k'.opener :=
    opener_unique known (opens_of_recognizeAs claimed) (opens_of_recognizeAs claimed')
  cases k <;> cases k' <;> try cases opener
  case immediate.immediate | combinedOffset.combinedOffset | relativeOffset.relativeOffset |
    weekdayRange.weekdayRange | weekdayAt.weekdayAt | weekday.weekday => rfl
  case combinedOffset.relativeOffset =>
    exact (not_relativeOffset_and_combinedOffset undigited_builtin claimed' claimed).elim
  case relativeOffset.combinedOffset =>
    exact (not_relativeOffset_and_combinedOffset undigited_builtin claimed claimed').elim
  case weekdayAt.weekday => exact (not_weekday_and_weekdayAt known claimed' claimed).elim
  case weekday.weekdayAt => exact (not_weekday_and_weekdayAt known claimed claimed').elim

/-- The shape that fits a text is the one that it is recognized as, wherever it stands in the
order. -/
theorem recognize_of_recognizeAs (known : ∀ l ∈ languages, l ∈ builtinCodes) {k : Shape}
    {phrase : Recognized}
    (claimed : (ofTable Table.builtin languages).recognizeAs text k = some phrase) :
    (ofTable Table.builtin languages).recognize text = some phrase := by
  have all : ∀ k' : Shape, k' ∈ k :: Shape.all := fun k' => List.mem_cons_of_mem k k'.mem_all
  rw [recognize, ← findSome?_of_exclusive (fun _ _ => shape_unique known) all Shape.mem_all,
    List.findSome?_cons, claimed]

end Weekdays

/-- For the languages at hand at most one shape fits a text, and any order in which all shapes are
tried finds the same phrase. -/
theorem recognizeAs_exclusive (languages : List String)
    (known : ∀ l ∈ languages, l ∈ builtinCodes) (text : String) :
    let v := ofTable Table.builtin languages
    (∀ k k' : Shape, (v.recognizeAs text k).isSome → (v.recognizeAs text k').isSome → k = k') ∧
      ∀ order : List Shape, (∀ k, k ∈ order) →
        order.findSome? (v.recognizeAs text) = v.recognize text := by
  intro v
  have only : ∀ k k' : Shape, (v.recognizeAs text k).isSome → (v.recognizeAs text k').isSome →
      k = k' := fun _ _ => shape_unique known
  exact ⟨only, fun order all => findSome?_of_exclusive only all Shape.mem_all⟩

/-- A word of two languages, with one of them named twice: it is tomorrow, whichever shape is asked
first. -/
theorem recognizeAs_exclusive_morgen :
    let v := ofTable Table.builtin ["nl", "de", "nl"]
    (∀ l ∈ ["nl", "de", "nl"], l ∈ builtinCodes) ∧
      v.recognizeAs "morgen" .immediate = some (.immediate .tomorrow) ∧
      (∀ k, (v.recognizeAs "morgen" k).isSome → k = .immediate) ∧
      Shape.all.reverse.findSome? (v.recognizeAs "morgen") = some (.immediate .tomorrow) := by
  intro v
  have known : ∀ l ∈ ["nl", "de", "nl"], l ∈ builtinCodes := by decide
  have claimed : v.recognizeAs "morgen" .immediate = some (.immediate .tomorrow) := by
    decide +kernel
  obtain ⟨only, any⟩ := recognizeAs_exclusive ["nl", "de", "nl"] known "morgen"
  refine ⟨known, claimed, fun k other => only k .immediate other (by rw [claimed]; rfl), ?_⟩
  rw [any _ fun k => List.mem_reverse.2 k.mem_all, recognize, Shape.all, List.findSome?_cons,
    claimed]

end Vocabulary

end DatePhrase
