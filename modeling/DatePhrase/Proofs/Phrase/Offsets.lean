import DatePhrase.Proofs.Phrase.Spelling
import DatePhrase.Proofs.Text.Numerals
import DatePhrase.Proofs.Vocabulary.Words

/-! Which texts the offset shapes accept, and which counts they read. Where no word has a digit, the
digits of a text fall into its counts in one way only, so the number read is the number written. -/
namespace DatePhrase
open Text Calendar

namespace Vocabulary
open Cut

variable {v : Vocabulary} {s rest amount unit : List Char}

theorem mem_cutCount : ((amount, unit), rest) ∈ v.cutCount s ↔ ∃ gap,
    s = amount ++ (gap ++ (unit ++ rest)) ∧ IsNumeral amount ∧ AllBlank gap ∧
      Spells v.unitWords unit := by
  simp only [cutCount, mem_bind, mem_pure, mem_atLeastOne, mem_cutBlanks, mem_oneOf_iff,
    Prod.mk.injEq, IsNumeral]
  constructor
  · rintro ⟨_, _, ⟨rfl, numeral⟩, gap, _, ⟨rfl, blank⟩, _, _, ⟨rfl, known⟩, ⟨rfl, rfl⟩, rfl⟩
    exact ⟨gap, rfl, numeral, blank, known⟩
  · rintro ⟨gap, rfl, numeral, blank, known⟩
    exact ⟨amount, _, ⟨rfl, numeral⟩, gap, _, ⟨rfl, blank⟩, unit, rest, ⟨rfl, known⟩, ⟨rfl, rfl⟩,
      rfl⟩

theorem mem_cutRelative : ((amount, unit), rest) ∈ v.cutRelative s ↔
    ∃ before within g₁ g₂ after,
      s = before ++ (within ++ (g₁ ++ (amount ++ (g₂ ++ (unit ++ (after ++ rest)))))) ∧
      (AllBlank before ∧ IsGap g₁ ∧ AllBlank after) ∧ Spells v.within within ∧
      IsNumeral amount ∧ AllBlank g₂ ∧ Spells v.unitWords unit := by
  simp only [cutRelative, mem_bind, mem_pure, mem_cutBlanks, mem_cutGap, mem_oneOf_iff,
    Prod.exists, mem_cutCount, Prod.mk.injEq]
  constructor
  · rintro ⟨before, _, ⟨rfl, blank⟩, within, _, ⟨rfl, opens⟩, g₁, _, ⟨rfl, gap⟩, _, _, _,
      ⟨g₂, rfl, count⟩, after, _, ⟨rfl, tail⟩, ⟨rfl, rfl⟩, rfl⟩
    exact ⟨before, within, g₁, g₂, after, rfl, ⟨blank, gap, tail⟩, opens, count⟩
  · rintro ⟨before, within, g₁, g₂, after, rfl, ⟨blank, gap, tail⟩, opens, count⟩
    exact ⟨before, _, ⟨rfl, blank⟩, within, _, ⟨rfl, opens⟩, g₁, _, ⟨rfl, gap⟩, amount, unit, _,
      ⟨g₂, rfl, count⟩, after, rest, ⟨rfl, tail⟩, ⟨rfl, rfl⟩, rfl⟩

theorem mem_cutCombined {amount₁ unit₁ amount₂ unit₂ : List Char} :
    (((amount₁, unit₁), (amount₂, unit₂)), rest) ∈ v.cutCombined s ↔
      ∃ before within g₁ g₂ g₃ joining g₄ g₅ after,
        s = before ++ (within ++ (g₁ ++ (amount₁ ++ (g₂ ++ (unit₁ ++ (g₃ ++ (joining ++ (g₄ ++
          (amount₂ ++ (g₅ ++ (unit₂ ++ (after ++ rest)))))))))))) ∧
        (AllBlank before ∧ IsGap g₁ ∧ IsGap g₃ ∧ IsGap g₄ ∧ AllBlank after) ∧
        (Spells v.within within ∧ Spells v.joining joining) ∧
        (IsNumeral amount₁ ∧ AllBlank g₂ ∧ Spells v.unitWords unit₁) ∧
        IsNumeral amount₂ ∧ AllBlank g₅ ∧ Spells v.unitWords unit₂ := by
  simp only [cutCombined, mem_bind, mem_pure, mem_cutBlanks, mem_cutGap, mem_oneOf_iff,
    Prod.exists, mem_cutCount, Prod.mk.injEq]
  constructor
  · rintro ⟨before, _, ⟨rfl, blank⟩, within, _, ⟨rfl, opens⟩, g₁, _, ⟨rfl, gap₁⟩, _, _, _,
      ⟨g₂, rfl, count₁⟩, g₃, _, ⟨rfl, gap₃⟩, joining, _, ⟨rfl, joins⟩, g₄, _, ⟨rfl, gap₄⟩, _, _, _,
      ⟨g₅, rfl, count₂⟩, after, _, ⟨rfl, tail⟩, ⟨⟨rfl, rfl⟩, rfl, rfl⟩, rfl⟩
    exact ⟨before, within, g₁, g₂, g₃, joining, g₄, g₅, after, rfl,
      ⟨blank, gap₁, gap₃, gap₄, tail⟩, ⟨opens, joins⟩, count₁, count₂⟩
  · rintro ⟨before, within, g₁, g₂, g₃, joining, g₄, g₅, after, rfl,
      ⟨blank, gap₁, gap₃, gap₄, tail⟩, ⟨opens, joins⟩, count₁, count₂⟩
    exact ⟨before, _, ⟨rfl, blank⟩, within, _, ⟨rfl, opens⟩, g₁, _, ⟨rfl, gap₁⟩, amount₁, unit₁, _,
      ⟨g₂, rfl, count₁⟩, g₃, _, ⟨rfl, gap₃⟩, joining, _, ⟨rfl, joins⟩, g₄, _, ⟨rfl, gap₄⟩,
      amount₂, unit₂, _, ⟨g₅, rfl, count₂⟩, after, rest, ⟨rfl, tail⟩, ⟨⟨rfl, rfl⟩, rfl, rfl⟩, rfl⟩

/-- The words of the offset shapes. -/
def offsetWords (v : Vocabulary) : List String := v.within ++ v.joining ++ v.unitWords

/-- A count has a value when its digits write a number that is not too large. -/
theorem offsetOf?_eq_some_iff {o : Offset} : v.offsetOf? (amount, unit) = some o ↔
    ∃ n : Nat, Writes amount n ∧ n ≤ 2 ^ 63 - 1 ∧ ⟨n, v.unitOf (asListed unit)⟩ = o := by
  have largest : maxCount = 2 ^ 63 - 1 := by decide
  simp only [offsetOf?, largest, Option.bind_eq_bind, Option.bind_eq_some_iff,
    readNat?_eq_some_iff, Option.ite_none_right_eq_some, Option.some.injEq]

theorem unitOf_of_lookup {w : String} {known : TimeUnit} (entry : v.units.lookup w = some known) :
    v.unitOf w = known := by
  rw [unitOf, entry, Option.getD_some]

end Vocabulary

variable {t : Table} {languages : List String} {text : String}

/-- The text is an in word, a gap, the digits `digits`, blanks if any and the unit word `w`, with
blanks around them. -/
def IsRelativeOffset (t : Table) (languages : List String) (text : String) (digits : List Char)
    (w : String) : Prop :=
  ∃ (before g₁ g₂ after : List Char) (within : String),
    text.toList = before ++ within.toList ++ g₁ ++ digits ++ g₂ ++ w.toList ++ after ∧
      (AllBlank before ∧ IsGap g₁ ∧ AllBlank g₂ ∧ AllBlank after) ∧
      within ∈ t.words languages "in" ∧ ∃ unit : TimeUnit, w ∈ t.words languages unit.name

/-- The text is an in word and two counts around an and word: digits, blanks if any and a unit word
each, with gaps between the others and blanks around them. -/
def IsCombinedOffset (t : Table) (languages : List String) (text : String)
    (digits₁ : List Char) (w₁ : String) (digits₂ : List Char) (w₂ : String) : Prop :=
  ∃ (before g₁ g₂ g₃ g₄ g₅ after : List Char) (within joining : String),
    text.toList = before ++ within.toList ++ g₁ ++ digits₁ ++ g₂ ++ w₁.toList ++ g₃ ++
        joining.toList ++ g₄ ++ digits₂ ++ g₅ ++ w₂.toList ++ after ∧
      (AllBlank before ∧ IsGap g₁ ∧ AllBlank g₂ ∧ IsGap g₃ ∧ IsGap g₄ ∧ AllBlank g₅ ∧
        AllBlank after) ∧
      (within ∈ t.words languages "in" ∧ joining ∈ t.words languages "and") ∧
      (∃ unit : TimeUnit, w₁ ∈ t.words languages unit.name) ∧
      ∃ unit : TimeUnit, w₂ ∈ t.words languages unit.name

/-- The keys of the words that offsets are made of. -/
def offsetKeys : List String := ["in", "and"] ++ TimeUnit.all.map TimeUnit.name

/-- No word that offsets are made of has a decimal digit. -/
def Table.OffsetsUndigited (t : Table) (languages : List String) : Prop :=
  ∀ key ∈ offsetKeys, ∀ language ∈ languages, ∀ w ∈ t.synonyms key language,
    ∀ c ∈ w.toList, isDigit c = false

instance (t : Table) (languages : List String) : Decidable (t.OffsetsUndigited languages) :=
  inferInstanceAs (Decidable (∀ key ∈ offsetKeys, _))

namespace Vocabulary
open Cut

/-- A word of an offset has no digit. -/
theorem clear_of_offsetKey (undigited : t.OffsetsUndigited languages) {key w : String}
    (offset : key ∈ offsetKeys) (listed : w ∈ t.words languages key) :
    ∀ c ∈ w.toList, isDigit c = false :=
  Table.clear_of_mem_words neverMade_digit (undigited key offset) listed

theorem unitName_mem (unit : TimeUnit) : unit.name ∈ offsetKeys := by cases unit <;> decide

/-- The words of the offset shapes are those of the keys. -/
theorem exists_offsetKey {w : String} (h : w ∈ (ofTable t languages).offsetWords) :
    ∃ key ∈ offsetKeys, w ∈ t.words languages key := by
  simp only [offsetWords, List.mem_append, mem_unitWords] at h
  rcases h with (listed | listed) | ⟨unit, listed⟩
  · exact ⟨"in", by decide, mem_arrange_words.1 listed⟩
  · exact ⟨"and", by decide, mem_arrange_words.1 listed⟩
  · exact ⟨unit.name, unitName_mem unit, listed⟩

theorem clear_of_blank {g : List Char} (blank : AllBlank g) : ∀ c ∈ g, isDigit c = false :=
  fun c hc => isDigit_of_isBlank (blank c hc)

/-- Behind a number stand blanks and a unit word, no more digits. -/
theorem stops_unit (undigited : t.OffsetsUndigited languages) {g rest : List Char} {w : String}
    {unit : TimeUnit} (blank : AllBlank g) (listed : w ∈ t.words languages unit.name) :
    Stops isDigit (g ++ (w.toList ++ rest)) := by
  have nonempty : w.toList ≠ [] := by simpa using Table.ne_empty_of_mem_words listed
  rw [← List.append_assoc, stops_append (by simp [nonempty])]
  intro c hc
  rcases List.mem_append.1 (List.mem_of_mem_head? hc) with h | h
  · exact clear_of_blank blank c h
  · exact clear_of_offsetKey undigited (unitName_mem unit) listed c h

theorem exists_of_spells_unit {part : List Char}
    (apart : Apart (ofTable t languages).offsetWords text.toList) (within : part ⊆ text.toList)
    (spelled : Spells (ofTable t languages).unitWords part) :
    ∃ w : String, part = w.toList ∧ ∃ unit : TimeUnit, w ∈ t.words languages unit.name := by
  obtain ⟨w, listed, same⟩ := exists_of_spells apart
    (fun w hw => by simp [offsetWords, hw]) within spelled
  exact ⟨w, same, mem_unitWords.1 listed⟩

theorem exists_reading_relativeOffset (lowered : lowerChars text.toList = text.toList)
    (apart : Apart (ofTable t languages).offsetWords text.toList) {amount unit : List Char}
    (cut : ((amount, unit), []) ∈ (ofTable t languages).cutRelative text.toList) :
    ∃ w known, IsRelativeOffset t languages text amount w ∧ IsNumeral amount ∧
      (ofTable t languages).units.lookup w = some known ∧ asListed unit = w := by
  obtain ⟨before, within, g₁, g₂, after, parts, blanks, opens, numeral, blank, spelled⟩ :=
    mem_cutRelative.1 cut
  rw [List.append_nil] at parts
  obtain ⟨i, opening, rfl⟩ := exists_of_spells apart (fun w hw => by simp [offsetWords, hw])
    (fun c hc => by simp [parts, hc]) opens
  have unit_within : unit ⊆ text.toList := fun c hc => by simp [parts, hc]
  obtain ⟨w, same, key, named⟩ := exists_of_spells_unit apart unit_within spelled
  obtain ⟨known, entry⟩ := exists_unit named
  refine ⟨w, known, ⟨before, g₁, g₂, after, i, ?_, ⟨blanks.1, blanks.2.1, blank, blanks.2.2⟩,
    mem_arrange_words.1 opening, key, named⟩, numeral, entry,
    asListed_of_subset lowered unit_within same⟩
  rw [parts, same]
  simp only [List.append_assoc]

theorem exists_reading_combinedOffset (lowered : lowerChars text.toList = text.toList)
    (apart : Apart (ofTable t languages).offsetWords text.toList)
    {amount₁ unit₁ amount₂ unit₂ : List Char}
    (cut : (((amount₁, unit₁), (amount₂, unit₂)), []) ∈
      (ofTable t languages).cutCombined text.toList) :
    ∃ w₁ known₁ w₂ known₂, IsCombinedOffset t languages text amount₁ w₁ amount₂ w₂ ∧
      (IsNumeral amount₁ ∧ IsNumeral amount₂) ∧
      ((ofTable t languages).units.lookup w₁ = some known₁ ∧ asListed unit₁ = w₁) ∧
      (ofTable t languages).units.lookup w₂ = some known₂ ∧ asListed unit₂ = w₂ := by
  obtain ⟨before, within, g₁, g₂, g₃, joining, g₄, g₅, after, parts,
    ⟨blank, gap₁, gap₃, gap₄, tail⟩, ⟨opens, joins⟩, ⟨numeral₁, blank₂, spelled₁⟩,
    ⟨numeral₂, blank₅, spelled₂⟩⟩ := mem_cutCombined.1 cut
  rw [List.append_nil] at parts
  obtain ⟨i, opening, rfl⟩ := exists_of_spells apart (fun w hw => by simp [offsetWords, hw])
    (fun c hc => by simp [parts, hc]) opens
  obtain ⟨a, connecting, rfl⟩ := exists_of_spells apart (fun w hw => by simp [offsetWords, hw])
    (fun c hc => by simp [parts, hc]) joins
  have within₁ : unit₁ ⊆ text.toList := fun c hc => by simp [parts, hc]
  have within₂ : unit₂ ⊆ text.toList := fun c hc => by simp [parts, hc]
  obtain ⟨w₁, same₁, key₁, named₁⟩ := exists_of_spells_unit apart within₁ spelled₁
  obtain ⟨w₂, same₂, key₂, named₂⟩ := exists_of_spells_unit apart within₂ spelled₂
  obtain ⟨known₁, entry₁⟩ := exists_unit named₁
  obtain ⟨known₂, entry₂⟩ := exists_unit named₂
  refine ⟨w₁, known₁, w₂, known₂, ⟨before, g₁, g₂, g₃, g₄, g₅, after, i, a, ?_,
    ⟨blank, gap₁, blank₂, gap₃, gap₄, blank₅, tail⟩,
    ⟨mem_arrange_words.1 opening, mem_arrange_words.1 connecting⟩, ⟨key₁, named₁⟩, key₂, named₂⟩,
    ⟨numeral₁, numeral₂⟩, ⟨entry₁, asListed_of_subset lowered within₁ same₁⟩, entry₂,
    asListed_of_subset lowered within₂ same₂⟩
  rw [parts, same₁, same₂]
  simp only [List.append_assoc]

/-- Around its digits an offset has none, and trimming what stands behind them leaves the unit
word. -/
theorem split_relativeOffset (undigited : t.OffsetsUndigited languages) {digits : List Char}
    {w : String} (shape : IsRelativeOffset t languages text digits w) :
    ∃ front back, text.toList = front ++ (digits ++ back) ∧
      (∀ c ∈ front, isDigit c = false) ∧ Stops isDigit back ∧ trimBlanks back = w.toList := by
  obtain ⟨before, g₁, g₂, after, i, parts, ⟨blank, gap, blank₂, tail⟩, opening, unit, named⟩ :=
    shape
  refine ⟨before ++ i.toList ++ g₁, g₂ ++ (w.toList ++ after), ?_, ?_,
    stops_unit undigited blank₂ named, ?_⟩
  · rw [parts]
    simp only [List.append_assoc]
  · intro c hc
    rcases List.mem_append.1 hc with hc | hc
    · rcases List.mem_append.1 hc with hc | hc
      · exact clear_of_blank blank c hc
      · exact clear_of_offsetKey undigited (by decide) opening c hc
    · exact clear_of_blank gap.2 c hc
  · rw [← List.append_assoc]
    exact trimBlanks_between blank₂ (Table.stops_of_mem_words named)
      (Table.tight_of_mem_words named) tail

/-- The digits and the unit word of an offset are determined. -/
theorem relativeOffset_unique (undigited : t.OffsetsUndigited languages)
    {digits digits' : List Char} {w w' : String} (numeral : IsNumeral digits)
    (shape : IsRelativeOffset t languages text digits w) (numeral' : IsNumeral digits')
    (shape' : IsRelativeOffset t languages text digits' w') : digits = digits' ∧ w = w' := by
  obtain ⟨front, back, parts, clear, stops, trimmed⟩ := split_relativeOffset undigited shape
  obtain ⟨front', back', parts', clear', stops', trimmed'⟩ := split_relativeOffset undigited shape'
  obtain ⟨-, same, rest⟩ := first_numeral_unique (parts.symm.trans parts') clear numeral stops
    clear' numeral' stops'
  refine ⟨same, String.toList_inj.1 ?_⟩
  rw [← trimmed, ← trimmed', rest]

/-- Around the digits of its two counts an offset has no other digits. -/
theorem split_combinedOffset (undigited : t.OffsetsUndigited languages)
    {digits₁ digits₂ : List Char} {w₁ w₂ : String}
    (shape : IsCombinedOffset t languages text digits₁ w₁ digits₂ w₂) :
    ∃ front middle back, text.toList = front ++ (digits₁ ++ (middle ++ (digits₂ ++ back))) ∧
      (∀ c ∈ front, isDigit c = false) ∧ (middle ≠ [] ∧ ∀ c ∈ middle, isDigit c = false) ∧
      Stops isDigit back := by
  obtain ⟨before, g₁, g₂, g₃, g₄, g₅, after, i, a, parts,
    ⟨blank, gap₁, blank₂, gap₃, gap₄, blank₅, tail⟩, ⟨opening, connecting⟩, ⟨unit₁, named₁⟩, unit₂,
    named₂⟩ := shape
  refine ⟨before ++ i.toList ++ g₁, g₂ ++ w₁.toList ++ g₃ ++ a.toList ++ g₄,
    g₅ ++ (w₂.toList ++ after), ?_, ?_, ⟨by simp [gap₃.1], ?_⟩, stops_unit undigited blank₅ named₂⟩
  · rw [parts]
    simp only [List.append_assoc]
  · simp only [List.mem_append]
    rintro c ((hc | hc) | hc)
    · exact clear_of_blank blank c hc
    · exact clear_of_offsetKey undigited (by decide) opening c hc
    · exact clear_of_blank gap₁.2 c hc
  · simp only [List.mem_append]
    rintro c ((((hc | hc) | hc) | hc) | hc)
    · exact clear_of_blank blank₂ c hc
    · exact clear_of_offsetKey undigited (unitName_mem unit₁) named₁ c hc
    · exact clear_of_blank gap₃.2 c hc
    · exact clear_of_offsetKey undigited (by decide) connecting c hc
    · exact clear_of_blank gap₄.2 c hc

/-- The digits of both counts of an offset are determined. -/
theorem combinedOffset_unique (undigited : t.OffsetsUndigited languages)
    {digits₁ digits₂ digits₁' digits₂' : List Char} {w₁ w₂ w₁' w₂' : String}
    (numeral₁ : IsNumeral digits₁) (numeral₂ : IsNumeral digits₂)
    (shape : IsCombinedOffset t languages text digits₁ w₁ digits₂ w₂)
    (numeral₁' : IsNumeral digits₁') (numeral₂' : IsNumeral digits₂')
    (shape' : IsCombinedOffset t languages text digits₁' w₁' digits₂' w₂') :
    digits₁ = digits₁' ∧ digits₂ = digits₂' := by
  obtain ⟨front, middle, back, parts, clear, ⟨nonempty, between⟩, stops⟩ :=
    split_combinedOffset undigited shape
  obtain ⟨front', middle', back', parts', clear', ⟨nonempty', between'⟩, stops'⟩ :=
    split_combinedOffset undigited shape'
  have begins : ∀ {m more : List Char}, m ≠ [] → (∀ c ∈ m, isDigit c = false) →
      Stops isDigit (m ++ more) := fun ne all =>
    (stops_append ne).2 fun c hc => all c (List.mem_of_mem_head? hc)
  obtain ⟨-, first, rest⟩ := first_numeral_unique (parts.symm.trans parts') clear numeral₁
    (begins nonempty between) clear' numeral₁' (begins nonempty' between')
  obtain ⟨-, second, -⟩ :=
    first_numeral_unique rest between numeral₂ stops between' numeral₂' stops'
  exact ⟨first, second⟩

theorem relativeOffset_of_recognizeAs (lowered : lowerChars text.toList = text.toList)
    (apart : Apart (ofTable t languages).offsetWords text.toList) {phrase : Recognized}
    (read : (ofTable t languages).recognizeAs text .relativeOffset = some phrase) :
    ∃ digits w n u, IsRelativeOffset t languages text digits w ∧ Writes digits n ∧
      n ≤ 2 ^ 63 - 1 ∧ (ofTable t languages).units.lookup w = some u ∧
      phrase = .relativeOffset ⟨n, u⟩ := by
  simp only [recognizeAs, Option.bind_eq_bind, Option.bind_eq_some_iff, Option.pure_def,
    Option.some.injEq, Prod.exists, offsetOf?_eq_some_iff] at read
  obtain ⟨amount, unit, cut, _, ⟨n, writes, inRange, rfl⟩, rfl⟩ := read
  obtain ⟨w, u, shape, -, entry, rfl⟩ :=
    exists_reading_relativeOffset lowered apart (mem_of_all? cut)
  exact ⟨amount, _, n, u, shape, writes, inRange, entry, by rw [unitOf_of_lookup entry]⟩

/-- The way to read the parts of an offset where they stand. -/
theorem mem_cutRelative_of_isRelativeOffset {digits : List Char} {w : String}
    (numeral : IsNumeral digits) (shape : IsRelativeOffset t languages text digits w) :
    ((digits, w.toList), []) ∈ (ofTable t languages).cutRelative text.toList := by
  obtain ⟨before, g₁, g₂, after, i, parts, ⟨blank, gap, blank₂, tail⟩, opening, unit, named⟩ :=
    shape
  refine mem_cutRelative.2 ⟨before, i.toList, g₁, g₂, after, ?_, ⟨blank, gap, tail⟩,
    spells_of_mem (mem_arrange_words.2 opening), numeral, blank₂,
    spells_of_mem (mem_unitWords.2 ⟨unit, named⟩)⟩
  rw [parts]
  simp only [List.append_assoc, List.append_nil]

theorem recognizeAs_of_isRelativeOffset (undigited : t.OffsetsUndigited languages)
    (lowered : lowerChars text.toList = text.toList)
    (apart : Apart (ofTable t languages).offsetWords text.toList) {digits : List Char}
    {w : String} {n : Nat} {u : TimeUnit} (shape : IsRelativeOffset t languages text digits w)
    (writes : Writes digits n) (inRange : n ≤ 2 ^ 63 - 1)
    (entry : (ofTable t languages).units.lookup w = some u) :
    (ofTable t languages).recognizeAs text .relativeOffset = some (.relativeOffset ⟨n, u⟩) := by
  have numeral := isNumeral_of_writes writes
  obtain ⟨⟨amount, unit⟩, preferred⟩ := Option.isSome_iff_exists.1
    (all?_isSome_iff.2 ⟨_, mem_cutRelative_of_isRelativeOffset numeral shape⟩)
  obtain ⟨w', u', shape', numeral', entry', listed⟩ :=
    exists_reading_relativeOffset lowered apart (mem_of_all? preferred)
  -- the preferred way has the same digits and the same unit word
  obtain ⟨rfl, rfl⟩ := relativeOffset_unique undigited numeral shape numeral' shape'
  have count : (ofTable t languages).offsetOf? (digits, unit) = some ⟨n, u⟩ :=
    offsetOf?_eq_some_iff.2 ⟨n, writes, inRange, by rw [listed, unitOf_of_lookup entry]⟩
  simp only [recognizeAs, preferred, count, Option.bind_eq_bind, Option.bind_some, Option.pure_def]

theorem combinedOffset_of_recognizeAs (lowered : lowerChars text.toList = text.toList)
    (apart : Apart (ofTable t languages).offsetWords text.toList) {phrase : Recognized}
    (read : (ofTable t languages).recognizeAs text .combinedOffset = some phrase) :
    ∃ digits₁ w₁ n₁ u₁ digits₂ w₂ n₂ u₂,
      IsCombinedOffset t languages text digits₁ w₁ digits₂ w₂ ∧
      (Writes digits₁ n₁ ∧ n₁ ≤ 2 ^ 63 - 1 ∧ Writes digits₂ n₂ ∧ n₂ ≤ 2 ^ 63 - 1) ∧
      ((ofTable t languages).units.lookup w₁ = some u₁ ∧
        (ofTable t languages).units.lookup w₂ = some u₂) ∧
      phrase = .combinedOffset ⟨n₁, u₁⟩ ⟨n₂, u₂⟩ := by
  simp only [recognizeAs, Option.bind_eq_bind, Option.bind_eq_some_iff, Option.pure_def,
    Option.some.injEq, Prod.exists, offsetOf?_eq_some_iff] at read
  obtain ⟨amount₁, unit₁, amount₂, unit₂, cut, _, ⟨n₁, writes₁, inRange₁, rfl⟩, _,
    ⟨n₂, writes₂, inRange₂, rfl⟩, rfl⟩ := read
  obtain ⟨w₁, u₁, w₂, u₂, shape, -, ⟨entry₁, rfl⟩, entry₂, rfl⟩ :=
    exists_reading_combinedOffset lowered apart (mem_of_all? cut)
  exact ⟨amount₁, _, n₁, u₁, amount₂, _, n₂, u₂, shape,
    ⟨writes₁, inRange₁, writes₂, inRange₂⟩, ⟨entry₁, entry₂⟩,
    by rw [unitOf_of_lookup entry₁, unitOf_of_lookup entry₂]⟩

/-- The way to read the parts of a combined offset where they stand. -/
theorem mem_cutCombined_of_isCombinedOffset {digits₁ digits₂ : List Char} {w₁ w₂ : String}
    (numeral₁ : IsNumeral digits₁) (numeral₂ : IsNumeral digits₂)
    (shape : IsCombinedOffset t languages text digits₁ w₁ digits₂ w₂) :
    (((digits₁, w₁.toList), (digits₂, w₂.toList)), []) ∈
      (ofTable t languages).cutCombined text.toList := by
  obtain ⟨before, g₁, g₂, g₃, g₄, g₅, after, i, a, parts,
    ⟨blank, gap₁, blank₂, gap₃, gap₄, blank₅, tail⟩, ⟨opening, connecting⟩, named₁, named₂⟩ := shape
  refine mem_cutCombined.2 ⟨before, i.toList, g₁, g₂, g₃, a.toList, g₄, g₅, after, ?_,
    ⟨blank, gap₁, gap₃, gap₄, tail⟩, ⟨spells_of_mem (mem_arrange_words.2 opening),
      spells_of_mem (mem_arrange_words.2 connecting)⟩,
    ⟨numeral₁, blank₂, spells_of_mem (mem_unitWords.2 named₁)⟩,
    numeral₂, blank₅, spells_of_mem (mem_unitWords.2 named₂)⟩
  rw [parts]
  simp only [List.append_assoc, List.append_nil]

theorem isSome_of_isCombinedOffset (undigited : t.OffsetsUndigited languages)
    (lowered : lowerChars text.toList = text.toList)
    (apart : Apart (ofTable t languages).offsetWords text.toList)
    {digits₁ digits₂ : List Char} {w₁ w₂ : String} {n₁ n₂ : Nat}
    (shape : IsCombinedOffset t languages text digits₁ w₁ digits₂ w₂)
    (writes₁ : Writes digits₁ n₁) (inRange₁ : n₁ ≤ 2 ^ 63 - 1)
    (writes₂ : Writes digits₂ n₂) (inRange₂ : n₂ ≤ 2 ^ 63 - 1) :
    ((ofTable t languages).recognizeAs text .combinedOffset).isSome := by
  have numeral₁ := isNumeral_of_writes writes₁
  have numeral₂ := isNumeral_of_writes writes₂
  obtain ⟨⟨⟨amount₁, unit₁⟩, amount₂, unit₂⟩, preferred⟩ := Option.isSome_iff_exists.1
    (all?_isSome_iff.2 ⟨_, mem_cutCombined_of_isCombinedOffset numeral₁ numeral₂ shape⟩)
  obtain ⟨w₁', _, w₂', _, shape', ⟨numeral₁', numeral₂'⟩, -, -⟩ :=
    exists_reading_combinedOffset lowered apart (mem_of_all? preferred)
  -- the preferred way may have other unit words than this, but it has the same digits
  obtain ⟨rfl, rfl⟩ :=
    combinedOffset_unique undigited numeral₁ numeral₂ shape numeral₁' numeral₂' shape'
  have count₁ : (ofTable t languages).offsetOf? (digits₁, unit₁) = some _ :=
    offsetOf?_eq_some_iff.2 ⟨n₁, writes₁, inRange₁, rfl⟩
  have count₂ : (ofTable t languages).offsetOf? (digits₂, unit₂) = some _ :=
    offsetOf?_eq_some_iff.2 ⟨n₂, writes₂, inRange₂, rfl⟩
  simp only [recognizeAs, preferred, count₁, count₂, Option.bind_eq_bind, Option.bind_some,
    Option.pure_def, Option.isSome_some]

/-- The offset shapes accept exactly the texts of their form with numbers in range, and read off
the numbers written and the units of the words behind them. -/
theorem recognizeAs_offsets (t : Table) (languages : List String) (text : String)
    (undigited : t.OffsetsUndigited languages) (lowered : lower text = text)
    (apart : Apart (ofTable t languages).offsetWords text.toList) :
    let v := ofTable t languages
    (∀ phrase, v.recognizeAs text .relativeOffset = some phrase ↔
        ∃ digits w n u, IsRelativeOffset t languages text digits w ∧ Writes digits n ∧
          n ≤ 2 ^ 63 - 1 ∧ v.units.lookup w = some u ∧ phrase = .relativeOffset ⟨n, u⟩) ∧
      ((v.recognizeAs text .combinedOffset).isSome ↔
        ∃ digits₁ w₁ n₁ digits₂ w₂ n₂,
          IsCombinedOffset t languages text digits₁ w₁ digits₂ w₂ ∧
          Writes digits₁ n₁ ∧ n₁ ≤ 2 ^ 63 - 1 ∧ Writes digits₂ n₂ ∧ n₂ ≤ 2 ^ 63 - 1) ∧
      ∀ phrase, v.recognizeAs text .combinedOffset = some phrase →
        ∃ digits₁ w₁ n₁ u₁ digits₂ w₂ n₂ u₂,
          IsCombinedOffset t languages text digits₁ w₁ digits₂ w₂ ∧
          (Writes digits₁ n₁ ∧ n₁ ≤ 2 ^ 63 - 1 ∧ Writes digits₂ n₂ ∧ n₂ ≤ 2 ^ 63 - 1) ∧
          (v.units.lookup w₁ = some u₁ ∧ v.units.lookup w₂ = some u₂) ∧
          phrase = .combinedOffset ⟨n₁, u₁⟩ ⟨n₂, u₂⟩ := by
  intro v
  have settled : lowerChars text.toList = text.toList := by
    have same := congrArg String.toList lowered
    rwa [lower, String.toList_ofList] at same
  refine ⟨fun phrase => ⟨fun read => relativeOffset_of_recognizeAs settled apart read, ?_⟩,
    ⟨fun accepted => ?_, ?_⟩, fun phrase read => combinedOffset_of_recognizeAs settled apart read⟩
  · rintro ⟨digits, w, n, u, shape, writes, inRange, entry, rfl⟩
    exact recognizeAs_of_isRelativeOffset undigited settled apart shape writes inRange entry
  · obtain ⟨phrase, read⟩ := Option.isSome_iff_exists.1 accepted
    obtain ⟨digits₁, w₁, n₁, _, digits₂, w₂, n₂, _, shape, numbers, -⟩ :=
      combinedOffset_of_recognizeAs settled apart read
    exact ⟨digits₁, w₁, n₁, digits₂, w₂, n₂, shape, numbers⟩
  · rintro ⟨digits₁, w₁, n₁, digits₂, w₂, n₂, shape, writes₁, inRange₁, writes₂, inRange₂⟩
    exact isSome_of_isCombinedOffset undigited settled apart shape writes₁ inRange₁ writes₂ inRange₂

/-- A number just in range before a unit word that begins another one. -/
theorem recognizeAs_offsets_largest :
    let t := ((Table.empty.insert "en" "in" "in").insert "en" "minute" "m|min").insert "en"
      "month" "mo"
    let text := "in 9223372036854775807mo"
    t.OffsetsUndigited ["en"] ∧ lower text = text ∧
      Apart (ofTable t ["en"]).offsetWords text.toList ∧
      (ofTable t ["en"]).recognizeAs text .relativeOffset =
        some (.relativeOffset ⟨9223372036854775807, .month⟩) := by
  intro t text
  have undigited : t.OffsetsUndigited ["en"] := by decide +kernel
  have lowered : lower text = text := by decide +kernel
  have apart : Apart (ofTable t ["en"]).offsetWords text.toList := by
    have all : Apart (offsetKeys.flatMap (t.words ["en"])) text.toList := by decide +kernel
    intro w hw
    obtain ⟨key, offset, listed⟩ := exists_offsetKey hw
    exact all w (List.mem_flatMap.2 ⟨key, offset, listed⟩)
  have shape : IsRelativeOffset t ["en"] text "9223372036854775807".toList "mo" :=
    ⟨[], [' '], [], [], "in", by decide +kernel, by decide, by decide +kernel, .month,
      by decide +kernel⟩
  have writes : Writes "9223372036854775807".toList 9223372036854775807 := by
    refine ⟨?_, ?_, ?_⟩ <;> decide +kernel
  have entry : (ofTable t ["en"]).units.lookup "mo" = some .month := by decide +kernel
  exact ⟨undigited, lowered, apart,
    ((recognizeAs_offsets t ["en"] text undigited lowered apart).1 _).2
      ⟨_, _, _, _, shape, writes, by decide, entry, rfl⟩⟩

end Vocabulary

end DatePhrase
