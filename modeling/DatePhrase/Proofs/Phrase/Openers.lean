import DatePhrase.Proofs.Phrase.Offsets
import DatePhrase.Proofs.Phrase.Weekdays
import DatePhrase.Proofs.Vocabulary.DayAndChoiceWords

/-! How phrases begin. A phrase of a fixed shape has one of four kinds of words in front: one for
now or a day near it, an in word, a from word or a word that chooses a week. Main statement: over
the languages at hand no text begins with words of two kinds, be its letters large or small. -/
namespace DatePhrase
open Text Calendar

namespace Text

/-- What stands before the first blank behind those at the start. -/
def firstWord (s : List Char) : List Char := (trimStart s).takeWhile fun c => !isBlank c

variable {before w more : List Char}

theorem trimStart_append (blank : AllBlank before) {s : List Char} (stops : Stops isBlank s) :
    trimStart (before ++ s) = s := by
  rw [trimStart, List.dropWhile_append_of_pos blank]
  cases s with
  | nil => rfl
  | cons c s => rw [List.dropWhile_cons_of_neg (by simp [stops_cons.1 stops])]

/-- What stands behind a word and its gap says nothing about the first word. -/
theorem firstWord_append (blank : AllBlank before) (nonempty : w ≠ []) (stops : Stops isBlank w)
    (ends : Stops (fun c => !isBlank c) more) :
    firstWord (before ++ (w ++ more)) = firstWord w := by
  have front : trimStart w = w := @trimStart_append [] nofun w stops
  have behind : more.takeWhile (fun c => !isBlank c) = [] := @takeWhile_run _ [] more nofun ends
  rw [firstWord, trimStart_append blank ((stops_append nonempty).2 stops), firstWord, front,
    List.takeWhile_append, behind, List.append_nil]
  split
  · rename_i whole
    exact ((List.takeWhile_prefix _).eq_of_length whole).symm
  · rfl

/-- A word without blanks belongs to the first word, wherever it ends. -/
theorem prefix_firstWord (blank : AllBlank before) (nonempty : w ≠ [])
    (solid : ∀ c ∈ w, isBlank c = false) : w <+: firstWord (before ++ (w ++ more)) := by
  have stops : Stops isBlank w := fun c hc => solid c (List.mem_of_mem_head? hc)
  rw [firstWord, trimStart_append blank ((stops_append nonempty).2 stops),
    List.takeWhile_append_of_pos fun c hc => by simp [solid c hc]]
  exact List.prefix_append w _

theorem map_fold_of_blank {g : List Char} (blank : AllBlank g) : g.map fold = g :=
  map_fold_of_folded fun c hc => folded_of_isBlank (blank c hc)

end Text

/-- A word without blanks ends where the gap behind it begins. -/
theorem word_unique {w w' gap gap' s s' : List Char} (solid : ∀ c ∈ w, isBlank c = false)
    (solid' : ∀ c ∈ w', isBlank c = false) (isGap : IsGap gap) (isGap' : IsGap gap')
    (same : w ++ (gap ++ s) = w' ++ (gap' ++ s')) : w = w' ∧ gap ++ s = gap' ++ s' := by
  have ends : ∀ {gap more : List Char}, IsGap gap → Stops (fun c => !isBlank c) (gap ++ more) :=
    fun isGap => (stops_append isGap.1).2 fun c hc => by
      simp [isGap.2 c (List.mem_of_mem_head? hc)]
  exact run_unique same (fun c hc => by simp [solid c hc]) (ends isGap)
    (fun c hc => by simp [solid' c hc]) (ends isGap')

/-- A word without blanks does not go on where a gap begins. -/
theorem eq_nil_of_gap {x gap s s' : List Char} (solid : ∀ c ∈ x, isBlank c = false)
    (isGap : IsGap gap) (same : gap ++ s = x ++ s') : x = [] := by
  obtain ⟨b, gap, rfl⟩ := List.exists_cons_of_ne_nil isGap.1
  cases x with
  | nil => rfl
  | cons c x =>
    have first : b = c := by simpa using congrArg List.head? same
    have clear := solid c (by simp)
    rw [← first, isGap.2 b (by simp)] at clear
    cases clear

/-- The kinds of words that phrases begin with. -/
inductive Opener where
  | immediate | within | opening | choosing
  deriving DecidableEq

/-- The keys of such words. -/
def Opener.keys : Opener → List String
  | immediate => Immediate.all.map Immediate.name
  | within => ["in"]
  | opening => ["from"]
  | choosing => WeekChoice.all.map WeekChoice.name

/-- What phrases of a shape begin with. -/
def Shape.opener : Shape → Opener
  | immediate => .immediate
  | combinedOffset | relativeOffset => .within
  | weekdayRange => .opening
  | weekdayAt | weekday => .choosing

namespace Vocabulary
open Cut

/-- The first words of all phrases at hand that do not choose a week. -/
def firstWords : List (List Char × Opener) :=
  [Opener.immediate, .within, .opening].flatMap fun o => builtinCodes.flatMap fun l =>
    o.keys.flatMap fun key => (spellings l key).map fun w => (firstWord w, o)

theorem first_words : ∀ e ∈ firstWords, firstWords.lookup e.1 = some e.2 ∧
    ∀ f ∈ choiceEntries, ¬ f.1 <+: e.1 := by
  decide +kernel

section Division
variable {languages : List String} {p p' : String} {week week' : WeekChoice}
variable {gap gap' s s' : List Char}

theorem eq_of_begins (known : ∀ l ∈ languages, l ∈ builtinCodes)
    (chosen : p ∈ Table.builtin.words languages week.name)
    (chosen' : p' ∈ Table.builtin.words languages week'.name)
    (blank : AllBlank gap) (touching : gap = [] → endsUnspaced p)
    (same : p.toList ++ (gap ++ s) = p'.toList ++ s') (shorter : p.toList <+: p'.toList) :
    p = p' := by
  obtain ⟨x, longer⟩ := shorter
  cases gap with
  | nil =>
    obtain ⟨-, -, only⟩ := choice_entries _ (mem_choiceEntries known chosen)
    have other := mem_choiceEntries known chosen'
    exact String.toList_inj.1 (only (touching rfl) _ other ⟨x, longer⟩)
  | cons b gap =>
    rw [← longer, List.append_assoc, List.append_cancel_left_eq] at same
    have solid : ∀ c ∈ x, isBlank c = false := fun c hc =>
      solid_choice known chosen' c (by simp [← longer, hc])
    have ends : x = [] := eq_nil_of_gap solid ⟨List.cons_ne_nil b gap, blank⟩ same
    exact String.toList_inj.1 (by simpa [ends] using longer)

/-- A text divides in one way into a word that chooses a week, its gap and what follows. -/
theorem choice_unique (known : ∀ l ∈ languages, l ∈ builtinCodes)
    (chosen : p ∈ Table.builtin.words languages week.name)
    (chosen' : p' ∈ Table.builtin.words languages week'.name)
    (blank : AllBlank gap) (touching : gap = [] → endsUnspaced p) (stops : Stops isBlank s)
    (blank' : AllBlank gap') (touching' : gap' = [] → endsUnspaced p') (stops' : Stops isBlank s')
    (same : p.toList ++ (gap ++ s) = p'.toList ++ (gap' ++ s')) : p = p' ∧ gap = gap' ∧ s = s' := by
  have equal : p = p' := by
    rcases List.prefix_or_prefix_of_prefix (List.prefix_append p.toList _)
      ⟨_, same.symm⟩ with shorter | longer
    · exact eq_of_begins known chosen chosen' blank touching same shorter
    · exact (eq_of_begins known chosen' chosen blank' touching' same.symm longer).symm
  subst equal
  exact ⟨rfl, run_unique (List.append_cancel_left same) blank stops blank' stops'⟩

/-- Nothing can be cut off before a word that begins the text. -/
theorem eq_nil_of_front {key w : String} {text front more : List Char}
    (listed : w ∈ Table.builtin.words languages key) (begins : w.toList <+: text)
    (blank : AllBlank front) (same : text = front ++ more) : front = [] := by
  cases front with
  | nil => rfl
  | cons c front =>
    obtain ⟨rest, parts⟩ := begins
    have stops : Stops isBlank (w.toList ++ rest) := Table.stops_word listed
    rw [parts, same, List.cons_append, stops_cons, blank c (by simp)] at stops
    cases stops

end Division

variable {languages : List String} {o o' : Opener} {s : List Char}

/-- The text has a word of this kind in front. The text ends or a gap stands behind it, unless it
chooses a week: then the weekday may touch it. -/
def Opens (languages : List String) (o : Opener) (s : List Char) : Prop :=
  ∃ key ∈ o.keys, ∃ w ∈ Table.builtin.words languages key, ∃ before more,
    s = before ++ (w.toList ++ more) ∧ AllBlank before ∧
      (o ≠ .choosing → Stops (fun c => !isBlank c) more)

theorem opens_of_choice {p : String} {week : WeekChoice}
    (chosen : p ∈ Table.builtin.words languages week.name) (begins : p.toList <+: s) :
    Opens languages .choosing s := by
  obtain ⟨more, rfl⟩ := begins
  exact ⟨week.name, List.mem_map.2 ⟨week, week.mem_all, rfl⟩, p, chosen, [], more, rfl,
    List.forall_mem_nil _, fun plain => absurd rfl plain⟩

section Known
variable (known : ∀ l ∈ languages, l ∈ builtinCodes)
include known

theorem mem_firstWords (opens : Opens languages o s) (plain : o ≠ .choosing) :
    (firstWord s, o) ∈ firstWords := by
  obtain ⟨key, kind, w, listed, before, more, rfl, blank, ends⟩ := opens
  obtain ⟨l, member, written⟩ := exists_spelling known listed
  rw [firstWord_append blank (by simpa using Table.ne_empty_of_mem_words listed)
    (Table.stops_of_mem_words listed) (ends plain)]
  refine List.mem_flatMap.2 ⟨o, ?_, List.mem_flatMap.2 ⟨l, member, List.mem_flatMap.2
    ⟨key, kind, List.mem_map.2 ⟨_, written, rfl⟩⟩⟩⟩
  cases o with
  | choosing => exact absurd rfl plain
  | immediate | within | opening => simp

theorem exists_choice_prefix (opens : Opens languages .choosing s) :
    ∃ e ∈ choiceEntries, e.1 <+: firstWord s := by
  obtain ⟨key, kind, w, listed, before, more, rfl, blank, -⟩ := opens
  obtain ⟨week, -, rfl⟩ := List.mem_map.1 kind
  exact ⟨_, mem_choiceEntries known listed, prefix_firstWord blank
    (by simpa using Table.ne_empty_of_mem_words listed) (solid_choice known listed)⟩

/-- No other word begins with a word that chooses a week. -/
theorem eq_choosing_of_opens (choosing : Opens languages .choosing s)
    (opens : Opens languages o s) : o = .choosing := by
  by_contra plain
  obtain ⟨e, chosen, front⟩ := exists_choice_prefix known choosing
  exact (first_words _ (mem_firstWords known opens plain)).2 e chosen front

/-- A text begins with words of one kind. -/
theorem opener_unique (opens : Opens languages o s) (opens' : Opens languages o' s) : o = o' := by
  by_cases choosing : o = .choosing
  · subst choosing
    exact (eq_choosing_of_opens known opens opens').symm
  by_cases choosing' : o' = .choosing
  · subst choosing'
    exact eq_choosing_of_opens known opens' opens
  have first := (first_words _ (mem_firstWords known opens choosing)).1
  have first' := (first_words _ (mem_firstWords known opens' choosing')).1
  exact Option.some.inj (first.symm.trans first')

end Known

theorem opens_of_spells {key : String} {before part gap more : List Char} (kind : key ∈ o.keys)
    (blank : AllBlank before) (isGap : IsGap gap)
    (spelled : Spells (arrange (Table.builtin.words languages key)) part) :
    Opens languages o ((before ++ (part ++ (gap ++ more))).map fold) := by
  obtain ⟨w, arranged, same⟩ := map_fold_of_spells
    (fun w hw => folded_of_mem_words (mem_arrange_words.1 hw)) spelled
  refine ⟨key, kind, w, mem_arrange_words.1 arranged, before, gap ++ more.map fold, ?_, blank,
    fun _ => (stops_append isGap.1).2 fun c hc => ?_⟩
  · simp only [List.map_append, same, map_fold_of_blank blank, map_fold_of_blank isGap.2]
  · simp [isGap.2 c (List.mem_of_mem_head? hc)]

/-- A choice of week is, with small letters, one of the words for it and a gap that it may have. -/
theorem exists_choice_of_isChoice {choice : List Char}
    (choosing : (ofTable Table.builtin languages).IsChoice choice) :
    ∃ (week : WeekChoice) (p : String) (gap : List Char),
      p ∈ Table.builtin.words languages week.name ∧ choice.map fold = p.toList ++ gap ∧
      AllBlank gap ∧ (gap = [] → endsUnspaced p) := by
  obtain ⟨part, gap, rfl, ⟨spelled, isGap⟩ | ⟨spelled, blank⟩⟩ := choosing
  · obtain ⟨p, listed, same⟩ := map_fold_of_spells (fun w hw => by
      obtain ⟨⟨week, h⟩, -⟩ := mem_spacedChoices.1 hw
      exact folded_of_mem_words h) spelled
    obtain ⟨⟨week, h⟩, -⟩ := mem_spacedChoices.1 listed
    exact ⟨week, p, gap, h, by rw [List.map_append, same, map_fold_of_blank isGap.2], isGap.2,
      fun missing => absurd missing isGap.1⟩
  · obtain ⟨p, listed, same⟩ := map_fold_of_spells (fun w hw => by
      obtain ⟨⟨week, h⟩, -⟩ := mem_touchingChoices.1 hw
      exact folded_of_mem_words h) spelled
    obtain ⟨⟨week, h⟩, touching⟩ := mem_touchingChoices.1 listed
    exact ⟨week, p, gap, h, by rw [List.map_append, same, map_fold_of_blank blank], blank,
      fun _ => touching⟩

theorem opens_of_isChoice {before choice more : List Char} (blank : AllBlank before)
    (choosing : (ofTable Table.builtin languages).IsChoice choice) :
    Opens languages .choosing ((before ++ (choice ++ more)).map fold) := by
  obtain ⟨week, p, gap, listed, same, -, -⟩ := exists_choice_of_isChoice choosing
  refine ⟨week.name, List.mem_map.2 ⟨week, week.mem_all, rfl⟩, p, listed, before,
    gap ++ more.map fold, ?_, blank, fun plain => absurd rfl plain⟩
  simp only [List.map_append, same, map_fold_of_blank blank, List.append_assoc]

/-- A text of a fixed shape begins with a word that the shape begins with. -/
theorem opens_of_recognizeAs {text : String} {shape : Shape} {phrase : Recognized}
    (claimed : (ofTable Table.builtin languages).recognizeAs text shape = some phrase) :
    Opens languages shape.opener (text.toList.map fold) := by
  cases shape <;> simp only [recognizeAs, Option.bind_eq_bind, Option.bind_eq_some_iff,
    Option.map_eq_some_iff, Option.pure_def, Option.some.injEq, Prod.exists] at claimed
  case immediate =>
    obtain ⟨i, entry, -⟩ := claimed
    have listed := mem_immediate_ofTable.1 (mem_of_lookup entry)
    refine ⟨i.name, List.mem_map.2 ⟨i, i.mem_all, rfl⟩, text, listed, [], [], ?_,
      List.forall_mem_nil _, fun _ => stops_nil⟩
    rw [map_fold_of_folded (folded_of_mem_words listed), List.nil_append, List.append_nil]
  case combinedOffset =>
    obtain ⟨_, _, _, _, way, -⟩ := claimed
    obtain ⟨before, within, g₁, _, _, _, _, _, _, parts, ⟨blank, gap, -⟩, ⟨opens, -⟩, -⟩ :=
      mem_cutCombined.1 (mem_of_all? way)
    rw [parts]
    exact opens_of_spells (by decide) blank gap opens
  case relativeOffset =>
    obtain ⟨_, _, way, -⟩ := claimed
    obtain ⟨before, within, g₁, _, _, parts, ⟨blank, gap, -⟩, opens, -⟩ :=
      mem_cutRelative.1 (mem_of_all? way)
    rw [parts]
    exact opens_of_spells (by decide) blank gap opens
  case weekdayRange =>
    obtain ⟨_, _, way, -⟩ := claimed
    obtain ⟨before, opening, g₁, _, _, _, _, parts, blank, -, ⟨gap, -⟩, ⟨opens, -⟩, -⟩ :=
      mem_cutRange.1 (mem_of_all? way)
    simp only [List.append_assoc] at parts
    rw [parts]
    exact opens_of_spells (by decide) blank gap opens
  case weekdayAt =>
    obtain ⟨_, _, _, way, -⟩ := claimed
    obtain ⟨before, _, _, _, parts, blank, ⟨choosing, -⟩, -⟩ :=
      mem_cutWeekdayAt.1 (mem_of_all? way)
    simp only [List.append_assoc] at parts
    rw [parts]
    exact opens_of_isChoice blank choosing
  case weekday =>
    obtain ⟨_, _, way, -⟩ := claimed
    obtain ⟨before, _, parts, blank, -, choosing, -⟩ := mem_cutWeekday.1 (mem_of_all? way)
    simp only [List.append_assoc] at parts
    rw [parts]
    exact opens_of_isChoice blank choosing

/-- A text that a word choosing a week begins has no shape that begins otherwise. -/
theorem recognizeAs_of_choice (known : ∀ l ∈ languages, l ∈ builtinCodes) {p : String}
    {week : WeekChoice} (chosen : p ∈ Table.builtin.words languages week.name) {text : List Char}
    (folded : AllFolded text) (begins : p.toList <+: text) {shape : Shape}
    (other : shape.opener ≠ .choosing) :
    (ofTable Table.builtin languages).recognizeAs (String.ofList text) shape = none := by
  rw [Option.eq_none_iff_forall_ne_some]
  intro phrase claimed
  have opens := opens_of_recognizeAs claimed
  rw [String.toList_ofList, map_fold_of_folded folded] at opens
  exact other (eq_choosing_of_opens known (opens_of_choice chosen begins) opens)

end Vocabulary

end DatePhrase
