import DatePhrase.Proofs.Phrase.Spelling
import DatePhrase.Proofs.Vocabulary.Words

/-! Which texts the weekday shapes accept. Every way to cut a text into the parts of a shape counts,
so a reading succeeds just when some division into blanks, words and gaps exists, whatever words
begin other words. -/
namespace DatePhrase
open Text Calendar

namespace Vocabulary
open Cut

variable {v : Vocabulary} {s rest : List Char}

/-- A word that chooses a week and the gap behind it, of which the gap is kept. -/
def cutChoiceGap (v : Vocabulary) : Cut (List Char) :=
  Cut.or (do let _ ← oneOf v.spacedChoices; cutGap)
    (do let _ ← oneOf v.touchingChoices; cutBlanks)

theorem cutChoice_eq (v : Vocabulary) : v.cutChoice = (·.1) <$> v.cutChoiceGap.taken := rfl

/-- The word chooses a week, in some case, and the gap is one that it may have. -/
def FitsGap (v : Vocabulary) (word gap : List Char) : Prop :=
  Spells v.spacedChoices word ∧ IsGap gap ∨ Spells v.touchingChoices word ∧ AllBlank gap

theorem mem_cutChoiceGap {gap : List Char} :
    (gap, rest) ∈ v.cutChoiceGap s ↔ ∃ word, s = word ++ gap ++ rest ∧ v.FitsGap word gap := by
  simp only [cutChoiceGap, FitsGap, mem_or, mem_bind, mem_oneOf_iff, mem_cutGap, mem_cutBlanks]
  constructor
  · rintro (⟨word, _, ⟨rfl, known⟩, rfl, blank⟩ | ⟨word, _, ⟨rfl, known⟩, rfl, blank⟩)
    · exact ⟨word, by simp only [List.append_assoc], .inl ⟨known, blank⟩⟩
    · exact ⟨word, by simp only [List.append_assoc], .inr ⟨known, blank⟩⟩
  · rintro ⟨word, rfl, ⟨known, blank⟩ | ⟨known, blank⟩⟩
    · exact .inl ⟨word, gap ++ rest, ⟨by simp only [List.append_assoc], known⟩, rfl, blank⟩
    · exact .inr ⟨word, gap ++ rest, ⟨by simp only [List.append_assoc], known⟩, rfl, blank⟩

theorem forward_cutChoiceGap (v : Vocabulary) : v.cutChoiceGap.Forward := by
  intro s gap rest cut
  obtain ⟨word, rfl, -⟩ := mem_cutChoiceGap.1 cut
  exact ⟨word ++ gap, rfl⟩

/-- A word that chooses a week with a gap that it may have. -/
def IsChoice (v : Vocabulary) (choice : List Char) : Prop :=
  ∃ word gap, choice = word ++ gap ∧ v.FitsGap word gap

theorem mem_cutChoice {choice : List Char} :
    (choice, rest) ∈ v.cutChoice s ↔ s = choice ++ rest ∧ v.IsChoice choice := by
  simp only [cutChoice_eq, mem_map, Prod.exists, mem_taken v.forward_cutChoiceGap,
    mem_cutChoiceGap, IsChoice]
  constructor
  · rintro ⟨_, gap, ⟨⟨word, rfl, fits⟩, cut⟩, rfl⟩
    obtain rfl := List.append_cancel_right cut
    exact ⟨rfl, word, gap, rfl, fits⟩
  · rintro ⟨rfl, word, gap, rfl, fits⟩
    exact ⟨word ++ gap, gap, ⟨⟨word, rfl, fits⟩, rfl⟩, rfl⟩

theorem mem_cutDay {choice day : List Char} :
    ((choice, day), rest) ∈ v.cutDay s ↔ ∃ before, s = before ++ choice ++ day ++ rest ∧
      AllBlank before ∧ v.IsChoice choice ∧ Spells v.dayWords day := by
  simp only [cutDay, mem_bind, mem_pure, mem_cutBlanks, mem_cutChoice, mem_oneOf_iff,
    Prod.mk.injEq]
  constructor
  · rintro ⟨before, _, ⟨rfl, blank⟩, _, _, ⟨rfl, choosing⟩, _, _, ⟨rfl, known⟩, ⟨rfl, rfl⟩, rfl⟩
    exact ⟨before, by simp, blank, choosing, known⟩
  · rintro ⟨before, rfl, blank, choosing, known⟩
    exact ⟨before, choice ++ (day ++ rest), ⟨by simp, blank⟩, choice, day ++ rest,
      ⟨rfl, choosing⟩, day, rest, ⟨rfl, known⟩, ⟨rfl, rfl⟩, rfl⟩

theorem mem_cutWeekday {choice day : List Char} :
    ((choice, day), rest) ∈ v.cutWeekday s ↔ ∃ before after,
      s = before ++ choice ++ day ++ after ++ rest ∧ AllBlank before ∧ AllBlank after ∧
      v.IsChoice choice ∧ Spells v.dayWords day := by
  simp only [cutWeekday, mem_bind, mem_pure, mem_cutBlanks, Prod.exists, mem_cutDay,
    Prod.mk.injEq]
  constructor
  · rintro ⟨_, _, _, ⟨before, rfl, blank, choosing, known⟩, after, _, ⟨rfl, closing⟩,
      ⟨rfl, rfl⟩, rfl⟩
    exact ⟨before, after, by simp, blank, closing, choosing, known⟩
  · rintro ⟨before, after, rfl, blank, closing, choosing, known⟩
    exact ⟨choice, day, after ++ rest, ⟨before, by simp, blank, choosing, known⟩, after, rest,
      ⟨rfl, closing⟩, ⟨rfl, rfl⟩, rfl⟩

theorem mem_cutWeekdayAt {choice day tail : List Char} :
    (((choice, day), tail), rest) ∈ v.cutWeekdayAt s ↔ ∃ before g₁ intro g₂,
      s = before ++ choice ++ day ++ (g₁ ++ (intro ++ (g₂ ++ (tail ++ rest)))) ∧
      AllBlank before ∧ (v.IsChoice choice ∧ Spells v.dayWords day) ∧
      (IsGap g₁ ∧ Spells v.clockIntro intro ∧ IsGap g₂) ∧ tail ≠ [] ∧ ∀ c ∈ tail, c ≠ '\n' := by
  simp only [cutWeekdayAt, mem_bind, mem_pure, mem_cutGap, mem_oneOf_iff, mem_atLeastOne,
    Prod.exists, mem_cutDay, Prod.mk.injEq, decide_eq_true_eq]
  constructor
  · rintro ⟨_, _, _, ⟨before, rfl, blank, choosing, known⟩, g₁, _, ⟨rfl, gap₁⟩, intro, _,
      ⟨rfl, opens⟩, g₂, _, ⟨rfl, gap₂⟩, _, _, ⟨rfl, line⟩, ⟨⟨rfl, rfl⟩, rfl⟩, rfl⟩
    exact ⟨before, g₁, intro, g₂, rfl, blank, ⟨choosing, known⟩, ⟨gap₁, opens, gap₂⟩, line⟩
  · rintro ⟨before, g₁, intro, g₂, rfl, blank, ⟨choosing, known⟩, ⟨gap₁, opens, gap₂⟩, line⟩
    exact ⟨choice, day, _, ⟨before, rfl, blank, choosing, known⟩, g₁, _, ⟨rfl, gap₁⟩, intro, _,
      ⟨rfl, opens⟩, g₂, _, ⟨rfl, gap₂⟩, tail, rest, ⟨rfl, line⟩, ⟨⟨rfl, rfl⟩, rfl⟩, rfl⟩

theorem mem_cutRange {first last : List Char} :
    ((first, last), rest) ∈ v.cutRange s ↔ ∃ before opening g₁ g₂ closing g₃ after,
      s = before ++ opening ++ g₁ ++ first ++ g₂ ++ closing ++ g₃ ++ last ++ after ++ rest ∧
      AllBlank before ∧ AllBlank after ∧ (IsGap g₁ ∧ IsGap g₂ ∧ IsGap g₃) ∧
      (Spells v.opening opening ∧ Spells v.closing closing) ∧
      Spells v.dayWords first ∧ Spells v.dayWords last := by
  simp only [cutRange, mem_bind, mem_pure, mem_cutBlanks, mem_cutGap, mem_oneOf_iff,
    Prod.mk.injEq]
  constructor
  · rintro ⟨before, _, ⟨rfl, blank⟩, opening, _, ⟨rfl, opens⟩, g₁, _, ⟨rfl, gap₁⟩, _, _,
      ⟨rfl, day₁⟩, g₂, _, ⟨rfl, gap₂⟩, closing, _, ⟨rfl, closes⟩, g₃, _, ⟨rfl, gap₃⟩, _, _,
      ⟨rfl, day₂⟩, after, _, ⟨rfl, tail⟩, ⟨rfl, rfl⟩, rfl⟩
    exact ⟨before, opening, g₁, g₂, closing, g₃, after, by simp only [List.append_assoc], blank,
      tail, ⟨gap₁, gap₂, gap₃⟩, ⟨opens, closes⟩, day₁, day₂⟩
  · rintro ⟨before, opening, g₁, g₂, closing, g₃, after, rfl, blank, tail,
      ⟨gap₁, gap₂, gap₃⟩, ⟨opens, closes⟩, day₁, day₂⟩
    exact ⟨before, _, ⟨by simp only [List.append_assoc], blank⟩, opening, _, ⟨rfl, opens⟩,
      g₁, _, ⟨rfl, gap₁⟩, first, _, ⟨rfl, day₁⟩, g₂, _, ⟨rfl, gap₂⟩, closing, _, ⟨rfl, closes⟩,
      g₃, _, ⟨rfl, gap₃⟩, last, _, ⟨rfl, day₂⟩, after, rest, ⟨rfl, tail⟩, ⟨rfl, rfl⟩, rfl⟩

/-- The words of the weekday shapes. -/
def weekdayWords (v : Vocabulary) : List String :=
  v.spacedChoices ++ v.touchingChoices ++ v.dayWords ++ v.opening ++ v.closing

end Vocabulary

variable {t : Table} {languages : List String} {text : String}

/-- The text is a this, next or last word `p`, a gap and a day word `d` between blanks. The gap may
be missing only behind a script written without spaces. -/
def IsWeekday (t : Table) (languages : List String) (text p d : String) : Prop :=
  ∃ before gap after : List Char,
    text.toList = before ++ p.toList ++ gap ++ d.toList ++ after ∧
      AllBlank before ∧ AllBlank gap ∧ AllBlank after ∧ (gap = [] → Vocabulary.endsUnspaced p) ∧
      (∃ week : WeekChoice, p ∈ t.words languages week.name) ∧
      ∃ day : Weekday, d ∈ t.words languages day.name

/-- The text is a from word, the day word `d₁`, a to word and the day word `d₂`, with gaps between
them and blanks around them. -/
def IsWeekdayRange (t : Table) (languages : List String) (text d₁ d₂ : String) : Prop :=
  ∃ (before g₁ g₂ g₃ after : List Char) (opening closing : String),
    text.toList = before ++ opening.toList ++ g₁ ++ d₁.toList ++ g₂ ++ closing.toList ++ g₃ ++
        d₂.toList ++ after ∧
      AllBlank before ∧ AllBlank after ∧ (IsGap g₁ ∧ IsGap g₂ ∧ IsGap g₃) ∧
      (opening ∈ t.words languages "from" ∧ closing ∈ t.words languages "to") ∧
      (∃ day : Weekday, d₁ ∈ t.words languages day.name) ∧
      ∃ day : Weekday, d₂ ∈ t.words languages day.name

namespace Vocabulary
open Cut

theorem exists_of_isChoice {choice : List Char}
    (apart : Apart (ofTable t languages).weekdayWords text.toList)
    (within : choice ⊆ text.toList) (choosing : (ofTable t languages).IsChoice choice) :
    ∃ (p : String) (gap : List Char), choice = p.toList ++ gap ∧ AllBlank gap ∧
      (gap = [] → endsUnspaced p) ∧ ∃ week : WeekChoice, p ∈ t.words languages week.name := by
  obtain ⟨part, gap, rfl, ⟨spelled, blank⟩ | ⟨spelled, blank⟩⟩ := choosing
  · obtain ⟨p, listed, rfl⟩ := exists_of_spells apart
      (fun w hw => by simp [weekdayWords, hw]) (fun c hc => within (by simp [hc])) spelled
    obtain ⟨choosing, -⟩ := mem_spacedChoices.1 listed
    exact ⟨p, gap, rfl, blank.2, fun missing => absurd missing blank.1, choosing⟩
  · obtain ⟨p, listed, rfl⟩ := exists_of_spells apart
      (fun w hw => by simp [weekdayWords, hw]) (fun c hc => within (by simp [hc])) spelled
    obtain ⟨choosing, touching⟩ := mem_touchingChoices.1 listed
    exact ⟨p, gap, rfl, blank, fun _ => touching, choosing⟩

theorem isChoice_of_word {p : String} {week : WeekChoice} {gap : List Char}
    (listed : p ∈ t.words languages week.name) (blank : AllBlank gap)
    (touching : gap = [] → endsUnspaced p) :
    (ofTable t languages).IsChoice (p.toList ++ gap) := by
  refine ⟨p.toList, gap, rfl, ?_⟩
  cases script : endsUnspaced p with
  | true => exact .inr ⟨spells_of_mem (mem_touchingChoices.2 ⟨⟨week, listed⟩, script⟩), blank⟩
  | false =>
    have needed : gap ≠ [] := fun missing => by simp [touching missing] at script
    exact .inl ⟨spells_of_mem (mem_spacedChoices.2 ⟨⟨week, listed⟩, script⟩), needed, blank⟩

theorem exists_of_spells_day {part : List Char}
    (apart : Apart (ofTable t languages).weekdayWords text.toList) (within : part ⊆ text.toList)
    (spelled : Spells (ofTable t languages).dayWords part) :
    ∃ d : String, part = d.toList ∧ ∃ day : Weekday, d ∈ t.words languages day.name := by
  obtain ⟨d, listed, same⟩ := exists_of_spells apart
    (fun w hw => by simp [weekdayWords, hw]) within spelled
  exact ⟨d, same, mem_dayWords.1 listed⟩

/-- The word behind a captured choice is what remains without its gap. -/
theorem choiceOf?_append {p : String} {week : WeekChoice} {gap : List Char}
    (lowered : lowerChars text.toList = text.toList) (within : p.toList ⊆ text.toList)
    (listed : p ∈ t.words languages week.name) (blank : AllBlank gap) (v : Vocabulary) :
    v.choiceOf? (p.toList ++ gap) = v.choice? p := by
  rw [choiceOf?, trimEnd_append (Table.tight_of_mem_words listed) blank,
    asListed_of_subset lowered within rfl]

theorem exists_reading_weekday (lowered : lowerChars text.toList = text.toList)
    (apart : Apart (ofTable t languages).weekdayWords text.toList) {choice day : List Char}
    (cut : ((choice, day), []) ∈ (ofTable t languages).cutWeekday text.toList) :
    ∃ p d week known, IsWeekday t languages text p d ∧
      (ofTable t languages).choice? p = some week ∧
      (ofTable t languages).days.lookup d = some known ∧
      (ofTable t languages).choiceOf? choice = some week ∧ asListed day = d := by
  obtain ⟨before, after, parts, blank, tail, choosing, spelled⟩ := mem_cutWeekday.1 cut
  rw [List.append_nil] at parts
  have within : choice ⊆ text.toList := fun c hc => by simp [parts, hc]
  obtain ⟨p, gap, rfl, gap_blank, touching, week, listed⟩ :=
    exists_of_isChoice apart within choosing
  have day_within : day ⊆ text.toList := fun c hc => by simp [parts, hc]
  obtain ⟨d, same, name, named⟩ := exists_of_spells_day apart day_within spelled
  obtain ⟨chosen, classified⟩ := exists_choice? listed
  obtain ⟨known, entry⟩ := exists_day named
  refine ⟨p, d, chosen, known, ⟨before, gap, after, ?_, blank, gap_blank, tail, touching,
    ⟨week, listed⟩, name, named⟩, classified, entry, ?_, ?_⟩
  · rw [parts, same]
    simp only [List.append_assoc]
  · rw [choiceOf?_append lowered (fun c hc => within (by simp [hc])) listed gap_blank, classified]
  · exact asListed_of_subset lowered day_within same

theorem exists_reading_weekdayRange (lowered : lowerChars text.toList = text.toList)
    (apart : Apart (ofTable t languages).weekdayWords text.toList) {first last : List Char}
    (cut : ((first, last), []) ∈ (ofTable t languages).cutRange text.toList) :
    ∃ d₁ d₂ known₁ known₂, IsWeekdayRange t languages text d₁ d₂ ∧
      (ofTable t languages).days.lookup d₁ = some known₁ ∧
      (ofTable t languages).days.lookup d₂ = some known₂ ∧
      asListed first = d₁ ∧ asListed last = d₂ := by
  obtain ⟨before, opening, g₁, g₂, closing, g₃, after, parts, blank, tail, gaps,
    ⟨opens, closes⟩, spelled₁, spelled₂⟩ := mem_cutRange.1 cut
  rw [List.append_nil] at parts
  obtain ⟨f, opening_listed, rfl⟩ := exists_of_spells apart
    (fun w hw => by simp [weekdayWords, hw]) (fun c hc => by simp [parts, hc]) opens
  obtain ⟨w, closing_listed, rfl⟩ := exists_of_spells apart
    (fun w hw => by simp [weekdayWords, hw]) (fun c hc => by simp [parts, hc]) closes
  have within₁ : first ⊆ text.toList := fun c hc => by simp [parts, hc]
  have within₂ : last ⊆ text.toList := fun c hc => by simp [parts, hc]
  obtain ⟨d₁, same₁, name₁, named₁⟩ := exists_of_spells_day apart within₁ spelled₁
  obtain ⟨d₂, same₂, name₂, named₂⟩ := exists_of_spells_day apart within₂ spelled₂
  obtain ⟨known₁, entry₁⟩ := exists_day named₁
  obtain ⟨known₂, entry₂⟩ := exists_day named₂
  exact ⟨d₁, d₂, known₁, known₂, ⟨before, g₁, g₂, g₃, after, f, w, by rw [parts, same₁, same₂],
    blank, tail, gaps, ⟨mem_arrange_words.1 opening_listed, mem_arrange_words.1 closing_listed⟩,
    ⟨name₁, named₁⟩, name₂, named₂⟩, entry₁, entry₂,
    asListed_of_subset lowered within₁ same₁, asListed_of_subset lowered within₂ same₂⟩

theorem dayOf_of_lookup {v : Vocabulary} {d : String} {known : Weekday}
    (entry : v.days.lookup d = some known) : v.dayOf d = known := by
  rw [dayOf, entry, Option.getD_some]

theorem weekday_of_recognizeAs (lowered : lowerChars text.toList = text.toList)
    (apart : Apart (ofTable t languages).weekdayWords text.toList) {phrase : Recognized}
    (read : (ofTable t languages).recognizeAs text .weekday = some phrase) :
    ∃ p d week day, IsWeekday t languages text p d ∧
      (ofTable t languages).choice? p = some week ∧
      (ofTable t languages).days.lookup d = some day ∧ phrase = .weekday week day := by
  simp only [recognizeAs, Option.bind_eq_bind, Option.bind_eq_some_iff, Option.pure_def,
    Option.some.injEq, Prod.exists] at read
  obtain ⟨choice, day, cut, found, chosen, rfl⟩ := read
  obtain ⟨p, d, week, known, shape, classified, entry, same, rfl⟩ :=
    exists_reading_weekday lowered apart (mem_of_all? cut)
  obtain rfl := Option.some.inj (same.symm.trans chosen)
  exact ⟨p, asListed day, week, known, shape, classified, entry, by rw [dayOf_of_lookup entry]⟩

theorem isSome_of_isWeekday (lowered : lowerChars text.toList = text.toList)
    (apart : Apart (ofTable t languages).weekdayWords text.toList) {p d : String}
    (shape : IsWeekday t languages text p d) :
    ((ofTable t languages).recognizeAs text .weekday).isSome := by
  obtain ⟨before, gap, after, parts, blank, gap_blank, tail, touching, ⟨week, listed⟩, named⟩ :=
    shape
  have some_cut : ((p.toList ++ gap, d.toList), []) ∈
      (ofTable t languages).cutWeekday text.toList := by
    refine mem_cutWeekday.2 ⟨before, after, ?_, blank, tail,
      isChoice_of_word listed gap_blank touching, spells_of_mem (mem_dayWords.2 named)⟩
    rw [parts]
    simp only [List.append_assoc, List.append_nil]
  -- the preferred cut may be another one than this, so its own words are looked up
  obtain ⟨⟨choice, day⟩, preferred⟩ :=
    Option.isSome_iff_exists.1 (all?_isSome_iff.2 ⟨_, some_cut⟩)
  obtain ⟨_, _, week, _, _, _, _, chosen, _⟩ :=
    exists_reading_weekday lowered apart (mem_of_all? preferred)
  simp only [recognizeAs, preferred, chosen, Option.bind_eq_bind, Option.bind_some,
    Option.pure_def, Option.isSome_some]

theorem weekdayRange_of_recognizeAs (lowered : lowerChars text.toList = text.toList)
    (apart : Apart (ofTable t languages).weekdayWords text.toList) {phrase : Recognized}
    (read : (ofTable t languages).recognizeAs text .weekdayRange = some phrase) :
    ∃ d₁ d₂ first last, IsWeekdayRange t languages text d₁ d₂ ∧
      (ofTable t languages).days.lookup d₁ = some first ∧
      (ofTable t languages).days.lookup d₂ = some last ∧ phrase = .weekdayRange first last := by
  simp only [recognizeAs, Option.bind_eq_bind, Option.bind_eq_some_iff, Option.pure_def,
    Option.some.injEq, Prod.exists] at read
  obtain ⟨first, last, cut, rfl⟩ := read
  obtain ⟨d₁, d₂, known₁, known₂, shape, entry₁, entry₂, rfl, rfl⟩ :=
    exists_reading_weekdayRange lowered apart (mem_of_all? cut)
  exact ⟨_, _, known₁, known₂, shape, entry₁, entry₂, by
    rw [dayOf_of_lookup entry₁, dayOf_of_lookup entry₂]⟩

theorem isSome_of_isWeekdayRange {d₁ d₂ : String}
    (shape : IsWeekdayRange t languages text d₁ d₂) :
    ((ofTable t languages).recognizeAs text .weekdayRange).isSome := by
  obtain ⟨before, g₁, g₂, g₃, after, opening, closing, parts, blank, tail, gaps,
    ⟨opening_listed, closing_listed⟩, named₁, named₂⟩ := shape
  have some_cut : ((d₁.toList, d₂.toList), []) ∈
      (ofTable t languages).cutRange text.toList := by
    refine mem_cutRange.2 ⟨before, opening.toList, g₁, g₂, closing.toList, g₃, after, ?_, blank,
      tail, gaps, ⟨spells_of_mem (mem_arrange_words.2 opening_listed),
        spells_of_mem (mem_arrange_words.2 closing_listed)⟩,
      spells_of_mem (mem_dayWords.2 named₁), spells_of_mem (mem_dayWords.2 named₂)⟩
    rw [parts, List.append_nil]
  obtain ⟨⟨first, last⟩, preferred⟩ :=
    Option.isSome_iff_exists.1 (all?_isSome_iff.2 ⟨_, some_cut⟩)
  simp only [recognizeAs, preferred, Option.bind_eq_bind, Option.bind_some, Option.pure_def,
    Option.isSome_some]

/-- The weekday shapes accept exactly the texts of their form, and read off the words in them. -/
theorem recognizeAs_weekdays (t : Table) (languages : List String) (text : String)
    (lowered : lower text = text)
    (apart : Apart (ofTable t languages).weekdayWords text.toList) :
    let v := ofTable t languages
    ((v.recognizeAs text .weekday).isSome ↔ ∃ p d, IsWeekday t languages text p d) ∧
      (∀ phrase, v.recognizeAs text .weekday = some phrase →
        ∃ p d week day, IsWeekday t languages text p d ∧ v.choice? p = some week ∧
          v.days.lookup d = some day ∧ phrase = .weekday week day) ∧
      ((v.recognizeAs text .weekdayRange).isSome ↔
        ∃ d₁ d₂, IsWeekdayRange t languages text d₁ d₂) ∧
      ∀ phrase, v.recognizeAs text .weekdayRange = some phrase →
        ∃ d₁ d₂ first last, IsWeekdayRange t languages text d₁ d₂ ∧
          v.days.lookup d₁ = some first ∧ v.days.lookup d₂ = some last ∧
          phrase = .weekdayRange first last := by
  intro v
  have settled : lowerChars text.toList = text.toList := by
    have same := congrArg String.toList lowered
    rwa [lower, String.toList_ofList] at same
  refine ⟨⟨fun accepted => ?_, ?_⟩, fun phrase read => weekday_of_recognizeAs settled apart read,
    ⟨fun accepted => ?_, ?_⟩, fun phrase read => weekdayRange_of_recognizeAs settled apart read⟩
  · obtain ⟨phrase, read⟩ := Option.isSome_iff_exists.1 accepted
    obtain ⟨p, d, _, _, shape, -⟩ := weekday_of_recognizeAs settled apart read
    exact ⟨p, d, shape⟩
  · rintro ⟨p, d, shape⟩
    exact isSome_of_isWeekday settled apart shape
  · obtain ⟨phrase, read⟩ := Option.isSome_iff_exists.1 accepted
    obtain ⟨d₁, d₂, _, _, shape, -⟩ := weekdayRange_of_recognizeAs settled apart read
    exact ⟨d₁, d₂, shape⟩
  · rintro ⟨d₁, d₂, shape⟩
    exact isSome_of_isWeekdayRange shape

/-- Words with the letters of search patterns stand for themselves. -/
theorem recognizeAs_weekdays_dotted :
    let t := (Table.empty.insert "en" "next" "n*xt").insert "en" "friday" "fri."
    lower "n*xt fri." = "n*xt fri." ∧
      Apart (ofTable t ["en"]).weekdayWords "n*xt fri.".toList ∧
      ∃ p d, IsWeekday t ["en"] "n*xt fri." p d := by
  intro t
  have lowered : lower "n*xt fri." = "n*xt fri." := by decide +kernel
  have apart : Apart (ofTable t ["en"]).weekdayWords "n*xt fri.".toList := by decide +kernel
  have accepted : ((ofTable t ["en"]).recognizeAs "n*xt fri." .weekday).isSome := by
    decide +kernel
  exact ⟨lowered, apart,
    (recognizeAs_weekdays t ["en"] "n*xt fri." lowered apart).1.1 accepted⟩

end Vocabulary

end DatePhrase
