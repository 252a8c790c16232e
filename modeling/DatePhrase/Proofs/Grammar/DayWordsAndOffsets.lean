import DatePhrase.Proofs.Calendar.CheckedSteps
import DatePhrase.Proofs.Grammar.LanguageWords
import DatePhrase.Proofs.Phrase.Spelling

/-! How the casual grammars of the languages at hand read a day word or an offset. The rule for it
prefers to read all of the text; of the other rules those for day words and weekdays find nothing
that stands by itself, and no other one reads the text as a whole. Main statements: each of these
texts is one match, which names the day or the instant that many units later. -/
namespace DatePhrase
open Text Calendar

/-- Days from the present one. -/
def Immediate.days : Immediate → Int
  | now => 0 | today => 0 | tomorrow => 1 | yesterday => -1

/-- The parts of an offset: an in word, a gap, at most nine digits that write a number, blanks if
any and a word for a unit. -/
structure OffsetParts (t : Table) (language : String) where
  within : String
  gap : List Char
  digits : List Char
  blanks : List Char
  word : String
  count : Nat
  unit : TimeUnit
  opening : within ∈ t.words [language] "in"
  gap_blank : IsGap gap
  writes : Writes digits count
  short : digits.length ≤ 9
  blank : AllBlank blanks
  named : word ∈ t.words [language] unit.name

/-- The text that the parts of an offset make up. -/
def OffsetParts.text {t : Table} {language : String} (p : OffsetParts t language) : List Char :=
  p.within.toList ++ (p.gap ++ (p.digits ++ (p.blanks ++ p.word.toList)))

theorem Calendar.Instant.move_of_add?_day {t target : Instant} {n : Int}
    (h : t.add? n .day = some target) : t.move n = .ok target := by
  rwa [Instant.move_eq_ok_iff_shift?, ← Instant.add?_day]

namespace Casual
open Cut

variable {g : Casual} {text : List Char} {o : Options} {stated : Stated}

theorem digitFirst_isoRule : DigitFirst isoRule := by
  refine .bind fun s t rest h => ?_
  obtain ⟨rfl, count, all⟩ := mem_exactly.1 h
  obtain ⟨d, t, rfl⟩ := List.exists_cons_of_length_eq_add_one count
  exact ⟨d, t ++ rest, rfl, all d (by simp)⟩

theorem digitFirst_ordinalRule (g : Casual) : DigitFirst g.ordinalRule :=
  .bind (digitFirst_oneTo 2)

theorem digitFirst_timeRule (g : Casual) : DigitFirst g.timeRule := by
  rw [timeRule_eq]
  exact .bind fun s _ rest h => g.digitFirst_cutClock s _ rest ((mem_taken g.forward_cutClock).1 h).1

theorem not_mem_of_digitFirst {α : Type} {c : Cut α} (first : DigitFirst c)
    (stops : Stops isDigit text) (a : α) (rest : List Char) : (a, rest) ∉ c text := by
  intro h
  obtain ⟨d, more, rfl, digit⟩ := first _ _ _ h
  rw [stops_cons.1 stops] at digit
  cases digit

theorem stays_timeRule (g : Casual) (plain : o.forward = false) : g.timeRule.Stays o := by
  refine Rule.Means.bind fun taken => .pure ?_
  unfold timeMeaning
  split
  · exact ⟨none, rfl⟩
  · simp only [plain, Bool.false_and, Bool.false_eq_true, if_false]
    exact ⟨_, rfl⟩

/-- Over a text without a digit at its start the rules that begin with digits do no harm. -/
theorem agrees_of_stops (g : Casual) (stated : Stated) (plain : o.forward = false)
    (stops : Stops isDigit text) :
    g.Agrees text o stated isoRule ∧ g.Agrees text o stated g.ordinalRule ∧
      g.Agrees text o stated g.timeRule :=
  ⟨agrees_of_stays (by simp [rules]) stays_isoRule
      fun m => not_mem_of_digitFirst digitFirst_isoRule stops m [],
    agrees_of_stays (by simp [rules]) g.stays_ordinalRule
      fun m => not_mem_of_digitFirst g.digitFirst_ordinalRule stops m [],
    agrees_of_stays (by simp [rules]) (g.stays_timeRule plain)
      fun m => not_mem_of_digitFirst g.digitFirst_timeRule stops m []⟩

/-- Over a text that begins with no next word the rule for periods does no harm. -/
theorem agrees_periodRule (folded : AllFolded text)
    (listed : ∀ f ∈ g.following, AllFolded f.toList ∧ ¬ f.toList <+: text) :
    g.Agrees text o stated g.periodRule := by
  refine agrees_of_stays (by simp [rules]) g.stays_periodRule fun m h => ?_
  obtain ⟨f, known, begins⟩ := exists_opening (fun f hf => (listed f hf).1) folded h
  exact (listed f known).2 begins

/-- Over a text without digits the rule for offsets does no harm. -/
theorem agrees_offsetRule (undigited : ∀ c ∈ text, isDigit c = false) :
    g.Agrees text o stated g.offsetRule := by
  refine agrees_of_stays (by simp [rules]) g.stays_offsetRule fun m h => ?_
  obtain ⟨within, s₁, first, h⟩ := mem_bind.1 h
  obtain ⟨gap, s₂, second, h⟩ := mem_bind.1 h
  obtain ⟨amount, s₃, third, -⟩ := mem_bind.1 h
  obtain ⟨d, more, rfl, digit⟩ := digitFirst_oneTo 9 _ _ _ third
  have behind : d :: more <:+ text :=
    (g.forward_cutSpace _ _ _ second).trans (forward_oneOf _ _ _ _ first)
  rw [undigited d (behind.subset (by simp))] at digit
  cases digit

theorem prefers_cutTrailing_nil (g : Casual) : g.cutTrailing.Prefers [] none [] := by
  refine prefers_of_only (mem_optional.2 (.inr ⟨rfl, rfl⟩)) ?_
  rintro ⟨time, rest⟩ h
  obtain ⟨rfl, rfl⟩ := of_mem_cutTrailing (by simp) h
  rfl

/-- A rule for words followed by a time prefers to read a text that is one of the words. -/
theorem prefers_timedRule {words : List String} {w : String}
    {meaning : List Char → Option (List Char) → Meaning} (listed : w ∈ Vocabulary.arrange words) :
    Cut.Prefers (g.timedRule (Vocabulary.arrange words) meaning) w.toList (meaning w.toList none)
      [] :=
  (prefers_oneOf_whole (Vocabulary.pairwise_arrange words) (Vocabulary.spells_of_mem listed)).bind
    (g.prefers_cutTrailing_nil.bind prefers_pure)

end Casual

namespace Casual
open Cut Vocabulary

variable {language w : String} {now target : Instant} {weekStart : Weekday}

theorem lookup_immediate (known : language ∈ builtinCodes) {i : Immediate}
    (listed : w ∈ Table.builtin.words [language] i.name) :
    (ofTable Table.builtin language).immediate.lookup w = some i := by
  refine lookup_of_unique (mem_immediate.2 listed) fun j h => ?_
  obtain ⟨one, -, -⟩ :=
    immediate_spellings language known i i.mem_all w.toList (mem_words_builtin.1 listed)
  exact one j j.mem_all (mem_words_builtin.1 (mem_immediate.1 h))

theorem lookup_unit (known : language ∈ builtinCodes) {unit : TimeUnit}
    (named : w ∈ Table.builtin.words [language] unit.name) :
    (ofTable Table.builtin language).units.lookup w = some unit := by
  refine lookup_of_unique (mem_units.2 named) fun u h => ?_
  obtain ⟨one, -, -⟩ :=
    unit_spellings language known unit unit.mem_all w.toList (mem_words_builtin.1 named)
  exact one u u.mem_all (mem_words_builtin.1 (mem_units.1 h))

/-- What a day word states. -/
def certainOfImmediate (i : Immediate) : Certainty :=
  if i = .now then Certainty.calendarDay.withClock else .calendarDay

/-- What an offset states. -/
def certainOfUnit (unit : TimeUnit) : Certainty :=
  if unit.isClock then Certainty.calendarDay.withClock else .calendarDay

theorem dayWordMeaning_eq_ok (g : Casual) (weekStart : Weekday) {i : Immediate}
    (folded : AllFolded w.toList) (entry : g.immediate.lookup w = some i)
    (later : now.add? i.days .day = some target) :
    g.dayWordMeaning w.toList none (.plain now weekStart) =
      .ok (some ⟨target, certainOfImmediate i⟩) := by
  have moved := Instant.move_of_add?_day later
  simp only [dayWordMeaning, asListed_of_folded folded, entry]
  cases i with
  | now | today =>
    obtain rfl : now = target := by
      simpa only [Immediate.days, Instant.move_zero, Except.ok.injEq] using moved
    rfl
  | tomorrow | yesterday =>
    simp only [Immediate.days] at moved
    simp only [Options.plain, moved]
    rfl

theorem offsetMeaning_eq_ok (g : Casual) (weekStart : Weekday) {digits : List Char} {n : Nat}
    {unit : TimeUnit} (writes : Writes digits n) (folded : AllFolded w.toList)
    (entry : g.units.lookup w = some unit) (later : now.add? n unit = some target) :
    g.offsetMeaning digits w.toList none (.plain now weekStart) =
      .ok (some ⟨target, certainOfUnit unit⟩) := by
  simp only [offsetMeaning, readNat?_eq_some_iff.2 writes, asListed_of_folded folded, entry,
    Options.plain, later, Option.bind_eq_bind, Option.bind_some, atTime, certainOfUnit]
  rfl

/-- In text without digits at its start the rules agree where those for words and offsets do. -/
theorem agrees_rules {g : Casual} {text : List Char} {o : Options} {stated : Stated}
    (plain : o.forward = false) (stops : Stops isDigit text)
    (dayWord : g.Agrees text o stated g.dayWordRule)
    (weekday : g.Agrees text o stated g.weekdayRule) (offset : g.Agrees text o stated g.offsetRule)
    (period : g.Agrees text o stated g.periodRule) :
    ∀ rule ∈ g.rules, g.Agrees text o stated rule := by
  obtain ⟨iso, ordinal, time⟩ := agrees_of_stops g stated plain stops
  intro rule listed
  simp only [rules, List.mem_cons, List.not_mem_nil, or_false] at listed
  rcases listed with rfl | rfl | rfl | rfl | rfl | rfl | rfl
  · exact iso
  · exact dayWord
  · exact weekday
  · exact offset
  · exact period
  · exact ordinal
  · exact time

theorem agrees_dayWordRule {text : List Char} {o : Options} {stated : Stated}
    (folded : AllFolded text) (hides : Hides (ofTable Table.builtin language).bounded
      ((ofTable Table.builtin language).immediateWords.map String.toList) text) :
    (ofTable Table.builtin language).Agrees text o stated
      (ofTable Table.builtin language).dayWordRule := by
  refine agrees_of_undelimited (isDelimited_of_hides (forward_of_mem_rules
    (g := ofTable Table.builtin language) (by simp [rules, dayWordRule_eq])) ?_ folded hides)
  intro v known
  obtain ⟨i, h⟩ := mem_immediateWords.1 known
  exact folded_of_mem_words h

theorem agrees_weekdayRule {text : List Char} {o : Options} {stated : Stated}
    (folded : AllFolded text) (hides : Hides (ofTable Table.builtin language).bounded
      ((ofTable Table.builtin language).dayWords.map String.toList) text) :
    (ofTable Table.builtin language).Agrees text o stated
      (ofTable Table.builtin language).weekdayRule := by
  refine agrees_of_undelimited (isDelimited_of_hides (forward_of_mem_rules
    (g := ofTable Table.builtin language) (by simp [rules, weekdayRule_eq])) ?_ folded hides)
  intro v known
  obtain ⟨d, h⟩ := mem_dayWords.1 known
  exact folded_of_mem_words h

theorem mem_following {f : String} : f ∈ (ofTable Table.builtin language).following ↔
    f ∈ Table.builtin.words [language] "next" := mem_arrange_words

/-- A day word is one match, of the day that it names. -/
theorem matches?_dayWord (known : language ∈ builtinCodes) {i : Immediate}
    (listed : w ∈ Table.builtin.words [language] i.name)
    (later : now.add? i.days .day = some target) :
    (ofTable Table.builtin language).matches? w.toList (.plain now weekStart) =
      .ok [⟨0, w, target, certainOfImmediate i⟩] := by
  have written := mem_words_builtin.1 listed
  have folded := folded_of_mem_spellings written
  have undigited := undigited_of_mem_spellings written
  obtain ⟨⟨nonempty, -, -⟩, -⟩ := plain_of_mem_spellings written
  obtain ⟨-, unopened, -⟩ := immediate_spellings language known i i.mem_all w.toList written
  have whole : Cut.Prefers (ofTable Table.builtin language).dayWordRule w.toList
      ((ofTable Table.builtin language).dayWordMeaning w.toList none) [] :=
    prefers_timedRule (mem_immediateWords.2 ⟨i, listed⟩)
  have meant := dayWordMeaning_eq_ok (ofTable Table.builtin language) weekStart folded
    (lookup_immediate known listed) later
  have period : (ofTable Table.builtin language).Agrees w.toList (.plain now weekStart)
      ⟨target, certainOfImmediate i⟩ (ofTable Table.builtin language).periodRule := by
    refine agrees_periodRule folded fun f next => ?_
    have opener := mem_following.1 next
    exact ⟨folded_of_mem_words opener, unopened _ (mem_words_builtin.1 opener)⟩
  have single := matches?_of_whole (by simp [rules]) whole nonempty meant
    (agrees_rules rfl (fun c hc => undigited c (List.mem_of_mem_head? hc))
      (agrees_of_whole whole nonempty meant)
      (agrees_weekdayRule folded (hides_immediate known listed)) (agrees_offsetRule undigited)
      period)
  rwa [String.ofList_toList] at single

/-- An in word is cut off a text in one way, since in words do not begin one another. -/
theorem prefers_within (known : language ∈ builtinCodes) {rest : List Char}
    (opening : w ∈ Table.builtin.words [language] "in") (folded : AllFolded rest) :
    (oneOf (ofTable Table.builtin language).within).Prefers (w.toList ++ rest) w.toList rest := by
  have listed : w ∈ (ofTable Table.builtin language).within := mem_arrange_words.2 opening
  refine prefers_of_only (mem_oneOf_iff.2 ⟨rfl, spells_of_mem listed⟩) ?_
  rintro ⟨part, left⟩ way
  obtain ⟨parts, spelled⟩ := mem_oneOf_iff.1 way
  have inside : AllFolded part := fun c hc =>
    allFolded_append.2 ⟨folded_of_mem_words opening, folded⟩ c (by simp [parts, hc])
  obtain ⟨v, other, rfl⟩ := exists_of_spells_folded
    (fun v hv => folded_of_mem_words (mem_arrange_words.1 hv)) inside spelled
  have opening' := mem_words_builtin.1 opening
  have other' := mem_words_builtin.1 (mem_arrange_words.1 other)
  have same : v.toList = w.toList := by
    rcases List.prefix_or_prefix_of_prefix (List.prefix_append w.toList rest)
      ⟨left, parts.symm⟩ with shorter | longer
    · exact (within_spellings language known _ opening').2.1 _ other' shorter
    · exact ((within_spellings language known _ other').2.1 _ opening' longer).symm
  rw [same, List.append_cancel_left_eq] at parts
  rw [same, parts]

end Casual

namespace OffsetParts
open Cut Vocabulary Casual

variable {language : String} (p : OffsetParts Table.builtin language)

theorem numeral : IsNumeral p.digits := isNumeral_of_writes p.writes

theorem folded_tail : AllFolded (p.gap ++ (p.digits ++ (p.blanks ++ p.word.toList))) := by
  simp only [allFolded_append]
  exact ⟨fun c hc => folded_of_isBlank (p.gap_blank.2 c hc),
    fun c hc => folded_of_plainDigit (p.writes.2.1 c hc),
    fun c hc => folded_of_isBlank (p.blank c hc), folded_of_mem_words p.named⟩

theorem folded : AllFolded p.text :=
  allFolded_append.2 ⟨folded_of_mem_words p.opening, p.folded_tail⟩

theorem within_ne_nil : p.within.toList ≠ [] :=
  (plain_of_mem_spellings (mem_words_builtin.1 p.opening)).1.1

theorem text_ne_nil : p.text ≠ [] := by simp [text, p.gap_blank.1]

theorem undigited_within : ∀ c ∈ p.within.toList, isDigit c = false :=
  undigited_of_mem_spellings (mem_words_builtin.1 p.opening)

theorem undigited_unit : ∀ c ∈ p.blanks ++ p.word.toList, isDigit c = false := by
  intro c hc
  rcases List.mem_append.1 hc with front | back
  · exact isDigit_of_isBlank (p.blank c front)
  · exact undigited_of_mem_spellings (mem_words_builtin.1 p.named) c back

theorem stops_text : Stops isDigit p.text :=
  (stops_append p.within_ne_nil).2 fun c hc => p.undigited_within c (List.mem_of_mem_head? hc)

include p in
theorem bounded (known : language ∈ builtinCodes) : (ofTable Table.builtin language).bounded :=
  bounded_builtin known (within_spellings language known _ (mem_words_builtin.1 p.opening)).1

/-- No day word and no weekday stands by itself in an offset. -/
theorem hides (known : language ∈ builtinCodes) {words : List (List Char)}
    (fewer : words ⊆ immediateSpellings language ++ daySpellings language) :
    Hides (ofTable Table.builtin language).bounded words p.text := by
  have named := mem_words_builtin.1 p.named
  obtain ⟨-, -, -, front⟩ := within_spellings language known _ (mem_words_builtin.1 p.opening)
  obtain ⟨-, other, letters⟩ := unit_spellings language known p.unit p.unit.mem_all _ named
  have back := hides_of_alphanumeric letters (undigited_of_mem_spellings named) other
  exact (hides_offset (fun part => solid_spellings) p.gap_blank.2 p.numeral.1 p.numeral.2 p.blank
    front back).mono (fun _ => p.bounded known) fewer

/-- No word for what comes next begins an offset. -/
theorem not_begins (known : language ∈ builtinCodes) {f : String}
    (next : f ∈ Table.builtin.words [language] "next") : ¬ f.toList <+: p.text := by
  intro begins
  obtain ⟨-, -, unopened, -⟩ := within_spellings language known _ (mem_words_builtin.1 p.opening)
  obtain ⟨neither, nor⟩ := unopened _ (mem_words_builtin.1 next)
  rcases List.prefix_or_prefix_of_prefix begins (List.prefix_append _ _) with shorter | longer
  · exact neither shorter
  · exact nor longer

/-- The parts of an offset fit the rule for offsets one by one. -/
theorem prefers_offsetRule (known : language ∈ builtinCodes) :
    Cut.Prefers (ofTable Table.builtin language).offsetRule p.text
      ((ofTable Table.builtin language).offsetMeaning p.digits p.word.toList none) [] := by
  have gap_stops : Stops isBlank (p.digits ++ (p.blanks ++ p.word.toList)) :=
    (stops_append p.numeral.1).2 fun c hc =>
      isBlank_of_isDigit (p.numeral.2 c (List.mem_of_mem_head? hc))
  have space : (ofTable Table.builtin language).cutSpace.Prefers
      (p.gap ++ (p.digits ++ (p.blanks ++ p.word.toList))) p.gap
      (p.digits ++ (p.blanks ++ p.word.toList)) := by
    rw [cutSpace, p.bounded known]
    exact prefers_atLeastOne p.gap_blank.1 p.gap_blank.2 gap_stops
  have amount : (oneTo 9 isDigit).Prefers (p.digits ++ (p.blanks ++ p.word.toList)) p.digits
      (p.blanks ++ p.word.toList) :=
    prefers_oneTo p.numeral.1 p.numeral.2 p.short
      (.inr fun c hc => p.undigited_unit c (List.mem_of_mem_head? hc))
  have blanks : cutBlanks.Prefers (p.blanks ++ p.word.toList) p.blanks p.word.toList :=
    prefers_many p.blank (Table.stops_of_mem_words p.named)
  have unit : (oneOf (ofTable Table.builtin language).unitWords).Prefers p.word.toList
      p.word.toList [] :=
    prefers_oneOf_whole (pairwise_arrange _)
      (spells_of_mem (Casual.mem_unitWords.2 ⟨p.unit, p.named⟩))
  exact (prefers_within known p.opening p.folded_tail).bind <| space.bind <| amount.bind <|
    blanks.bind <| unit.bind <| (prefers_cutTrailing_nil _).bind prefers_pure

/-- An offset is one match, of the instant that many units later. -/
theorem matches?_eq_ok (known : language ∈ builtinCodes) {now target : Instant}
    {weekStart : Weekday} (later : now.add? p.count p.unit = some target) :
    (ofTable Table.builtin language).matches? p.text (.plain now weekStart) =
      .ok [⟨0, String.ofList p.text, target, certainOfUnit p.unit⟩] := by
  have whole := p.prefers_offsetRule known
  have meant := offsetMeaning_eq_ok (ofTable Table.builtin language) weekStart p.writes
    (folded_of_mem_words p.named) (lookup_unit known p.named) later
  refine matches?_of_whole (by simp [rules]) whole p.text_ne_nil meant
    (agrees_rules rfl p.stops_text ?_ ?_ (agrees_of_whole whole p.text_ne_nil meant) ?_)
  · exact agrees_dayWordRule p.folded
      (p.hides known (List.subset_append_of_subset_left _ immediateWords_subset))
  · exact agrees_weekdayRule p.folded
      (p.hides known (List.subset_append_of_subset_right _ dayWords_subset))
  · refine agrees_periodRule p.folded fun f next => ?_
    have opener := mem_following.1 next
    exact ⟨folded_of_mem_words opener, p.not_begins known opener⟩

end OffsetParts

end DatePhrase
