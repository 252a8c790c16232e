import DatePhrase.Proofs.Calendar.WrittenDates
import DatePhrase.Proofs.Grammar.ClockTimes

/-! How the casual grammars read a date that is written with dashes, whatever words they know, as
long as no word has a digit. The rule for such dates prefers to read all of the text. Every other
rule needs a word somewhere in the text, which only a lone dash can be, and not at its start. Main
statement: the text is one match, the day that it names at the time of the reference. -/
namespace DatePhrase
open Text Calendar

namespace Casual
open Cut

variable {t : Table} {language w : String} {words : List String}

/-- The lists with a word in every span that the rules but that for dates with dashes find without
a colon and without a half of the day. -/
def wordLists (g : Casual) : List (List String) :=
  [g.immediateWords, g.dayWords, g.within, g.following, g.ordinalSuffix, g.hourSuffix]

theorem exists_key_of_mem_wordLists (listed : words ∈ (ofTable t language).wordLists)
    (h : w ∈ words) : ∃ key, w ∈ t.words [language] key := by
  simp only [wordLists, List.mem_cons, List.not_mem_nil, or_false] at listed
  rcases listed with rfl | rfl | rfl | rfl | rfl | rfl
  · obtain ⟨i, known⟩ := mem_immediateWords.1 h
    exact ⟨_, known⟩
  · obtain ⟨day, known⟩ := mem_dayWords.1 h
    exact ⟨_, known⟩
  all_goals exact ⟨_, Vocabulary.mem_arrange_words.1 h⟩

/-- Wherever the rule reads something in the text the language has a lone dash for a word, and the
rule never reads all of the text. -/
structure NeedsDash (t : Table) (language : String) (text : List Char) (rule : Rule) : Prop where
  dash : ∀ before s m rest, text = before ++ s → (m, rest) ∈ rule s →
    ∃ key, "-" ∈ t.words [language] key
  partial_only : ∀ m, (m, []) ∉ rule text

/-- Where the calendar has room or the language lacks the dash, such a rule does no harm. -/
theorem NeedsDash.agrees {text : List Char} {rule : Rule} {o : Options} {stated : Stated}
    (needs : NeedsDash t language text rule) (listed : rule ∈ (ofTable t language).rules)
    (room : o.HasRoom ∨ ∀ key, "-" ∉ t.words [language] key) :
    (ofTable t language).Agrees text o stated rule := by
  rcases room with room | dashless
  · exact agrees_of_stays listed (stays_of_mem_rules room listed) needs.partial_only
  · intro s scanned
    obtain ⟨before, after, parts, -, -, way⟩ :=
      exists_of_mem_scan (forward_of_mem_rules listed) scanned
    obtain ⟨key, dash⟩ := needs.dash before _ _ _ parts way
    exact absurd dash (dashless key)

end Casual

namespace DateDigits
open Cut Casual

variable {d : Date} (p : DateDigits d) {t : Table} {language : String}

section Dash
variable {before s part after rest : List Char} {words : List String}

/-- Of words without digits only a lone dash stands in the text, and not at its start. -/
theorem dash_of_spells (undigited : t.Undigited) (listed : words ∈ (ofTable t language).wordLists)
    (place : p.text = before ++ (part ++ after)) (spelled : Spells words part) :
    part = ['-'] ∧ (∃ key, "-" ∈ t.words [language] key) ∧ before ≠ [] := by
  have within : part ⊆ p.text := fun c hc => by simp [place, hc]
  have apart : Vocabulary.Apart words p.text := fun _ _ _ _ c hc same =>
    eq_of_sameLetter_dateChar (p.isDateChar c hc) same
  obtain ⟨w, known, rfl⟩ :=
    Vocabulary.exists_of_spells apart (List.Subset.refl words) within spelled
  obtain ⟨key, h⟩ := exists_key_of_mem_wordLists listed known
  have dashes : ∀ c ∈ w.toList, c = '-' := by
    intro c hc
    refine (p.chars c (within hc)).resolve_left fun plain => ?_
    have digit := isDigit_of_plain plain
    rw [undigited.clear h c hc] at digit
    cases digit
  have chain := p.isChain.infix ⟨before, after, by rw [place, List.append_assoc]⟩
  have single : w.toList = ['-'] := by
    match letters : w.toList with
    | [] => exact absurd letters (by simpa using Table.ne_empty_of_mem_words h)
    | [a] => rw [dashes a (by simp [letters])]
    | a :: b :: more =>
      rw [letters, dashes a (by simp [letters]), dashes b (by simp [letters])] at chain
      rcases (List.isChain_cons_cons.1 chain).1 with plain | plain <;>
        exact absurd plain (by decide)
  refine ⟨single, ⟨key, ?_⟩, ?_⟩
  · rwa [← String.ofList_toList (s := w), single] at h
  · rintro rfl
    obtain ⟨c, more, begins, plain⟩ := p.begins
    rw [begins, single] at place
    obtain ⟨rfl, -⟩ := List.cons.inj place
    exact absurd plain (by decide)

theorem needsDash_oneOf (undigited : t.Undigited) (listed : words ∈ (ofTable t language).wordLists)
    (f : List Char → Rule) : NeedsDash t language p.text (oneOf words >>= f) where
  dash := by
    intro before s m rest place way
    obtain ⟨part, mid, first, -⟩ := mem_bind.1 way
    obtain ⟨rfl, spelled⟩ := mem_oneOf_iff.1 first
    exact (p.dash_of_spells undigited listed place spelled).2.1
  partial_only := by
    intro m way
    obtain ⟨part, mid, first, -⟩ := mem_bind.1 way
    obtain ⟨parts, spelled⟩ := mem_oneOf_iff.1 first
    have place : p.text = [] ++ (part ++ mid) := parts
    exact (p.dash_of_spells undigited listed place spelled).2.2 rfl

theorem needsDash_ordinalRule (undigited : t.Undigited) :
    NeedsDash t language p.text (ofTable t language).ordinalRule := by
  have listed : (ofTable t language).ordinalSuffix ∈ (ofTable t language).wordLists := by
    simp [wordLists]
  have read : ∀ {before s m rest}, p.text = before ++ s →
      (m, rest) ∈ (ofTable t language).ordinalRule s →
      s.length ≤ 3 + rest.length ∧ ∃ key, "-" ∈ t.words [language] key := by
    intro before s m rest place way
    obtain ⟨day, mid, first, way⟩ := mem_bind.1 way
    obtain ⟨suffix, back, second, last⟩ := mem_bind.1 way
    obtain ⟨-, rfl⟩ := mem_pure.1 last
    obtain ⟨rfl, -, short, -⟩ := mem_oneTo.1 first
    obtain ⟨rfl, spelled⟩ := mem_oneOf_iff.1 second
    rw [← List.append_assoc] at place
    obtain ⟨rfl, known, -⟩ := p.dash_of_spells undigited listed place spelled
    exact ⟨by simp only [List.length_append, List.length_singleton]; omega, known⟩
  refine ⟨fun before s m rest place way => (read place way).2, fun m way => ?_⟩
  have short := (read (List.nil_append p.text).symm way).1
  rw [p.length_text] at short
  exact absurd short (by decide)

/-- A clock time in the text is an hour with a dash behind it. -/
theorem dash_of_mem_cutClock (undigited : t.Undigited) (place : p.text = before ++ s)
    {clock : ClockText} (way : (clock, rest) ∈ (ofTable t language).cutClock s) :
    (∃ key, "-" ∈ t.words [language] key) ∧ ∃ hour more, s = hour ++ '-' :: more ∧
      hour.length ≤ 2 ∧ ∀ c ∈ hour, isDigit c := by
  have chars : ∀ c ∈ s, IsPlainDigit c ∨ c = '-' := fun c hc => p.chars c (by simp [place, hc])
  rcases mem_or.1 way with way | way
  · rcases mem_or.1 way with dial | colon
    · have letter := mem_of_mem_cutDial (fun c hc => p.folded c (by simp [place, hc])) dial
      rcases chars _ letter with plain | dash
      · exact absurd plain (by decide)
      · exact absurd dash (by decide)
    · obtain ⟨hour, mid, first, way⟩ := mem_bind.1 colon
      obtain ⟨mark, back, second, -⟩ := mem_bind.1 way
      obtain ⟨rfl, -⟩ := mem_oneTo.1 first
      obtain ⟨marked, rfl⟩ := mem_char.1 second
      rw [of_decide_eq_true marked] at chars
      rcases chars ':' (by simp) with plain | dash
      · exact absurd plain (by decide)
      · exact absurd dash (by decide)
  · obtain ⟨hour, mid, first, way⟩ := mem_bind.1 way
    obtain ⟨blanks, back, second, way⟩ := mem_bind.1 way
    obtain ⟨word, behind, third, -⟩ := mem_bind.1 way
    obtain ⟨rfl, -, short, digits⟩ := mem_oneTo.1 first
    obtain ⟨rfl, blank⟩ := Vocabulary.mem_cutBlanks.1 second
    obtain ⟨rfl, spelled⟩ := mem_oneOf_iff.1 third
    have none : blanks = [] := by
      rw [List.eq_nil_iff_forall_not_mem]
      intro c hc
      have solid := p.solid c (by simp [place, hc])
      rw [blank c hc] at solid
      cases solid
    rw [none, List.nil_append] at place ⊢
    rw [← List.append_assoc] at place
    have listed : (ofTable t language).hourSuffix ∈ (ofTable t language).wordLists := by
      simp [wordLists]
    obtain ⟨rfl, known, -⟩ := p.dash_of_spells undigited listed place spelled
    exact ⟨known, hour, behind, rfl, short, digits⟩

theorem needsDash_timeRule (undigited : t.Undigited) :
    NeedsDash t language p.text (ofTable t language).timeRule := by
  have read : ∀ {before s m rest}, p.text = before ++ s →
      (m, rest) ∈ (ofTable t language).timeRule s → (∃ key, "-" ∈ t.words [language] key) ∧
        ∃ hour more, s = hour ++ '-' :: more ∧ hour.length ≤ 2 ∧ ∀ c ∈ hour, isDigit c := by
    intro before s m rest place way
    rw [timeRule_eq] at way
    obtain ⟨⟨taken, clock⟩, mid, first, -⟩ := mem_bind.1 way
    exact p.dash_of_mem_cutClock undigited place
      ((mem_taken (forward_cutClock (ofTable t language))).1 first).1
  refine ⟨fun before s m rest place way => (read place way).1, fun m way => ?_⟩
  -- the first dash stands behind four digits
  obtain ⟨-, hour, more, parts, short, digits⟩ := read (List.nil_append p.text).symm way
  have year : ∀ c ∈ p.year, isDigit c := fun c hc => isDigit_of_plain (p.writes_year.2.1 c hc)
  have stops : ∀ {s}, Stops isDigit ('-' :: s) := stops_cons.2 (by decide)
  obtain ⟨rfl, -⟩ := run_unique parts year stops digits stops
  rw [p.four] at short
  exact absurd short (by decide)

end Dash

theorem prefers_isoRule : Cut.Prefers isoRule p.text (isoMeaning p.year p.month p.day) [] := by
  have plain : ∀ {digits : List Char} {n : Nat}, Writes digits n → ∀ c ∈ digits, isDigit c :=
    fun writes c hc => isDigit_of_plain (writes.2.1 c hc)
  have year : (exactly isDigit 4).Prefers p.text p.year ('-' :: (p.month ++ '-' :: p.day)) := by
    rw [← p.four]
    exact prefers_exactly (plain p.writes_year)
  have month : (oneTo 2 isDigit).Prefers (p.month ++ '-' :: p.day) p.month ('-' :: p.day) :=
    prefers_oneTo p.writes_month.1 (plain p.writes_month) (Nat.le_of_eq p.two) (.inl p.two)
  have day : (oneTo 2 isDigit).Prefers (p.day ++ []) p.day [] :=
    prefers_oneTo p.writes_day.1 (plain p.writes_day) (Nat.le_of_eq p.two_day) (.inl p.two_day)
  rw [List.append_nil] at day
  exact year.bind <| (prefers_char (by decide)).bind <| month.bind <|
    (prefers_char (by decide)).bind <| day.bind prefers_pure

theorem isoMeaning_eq_ok (o : Options) : isoMeaning p.year p.month p.day o =
    .ok (some ⟨⟨d, o.reference.time⟩, .calendarDay⟩) := by
  simp only [isoMeaning, readNat?_eq_some_iff.2 p.writes_year,
    readNat?_eq_some_iff.2 p.writes_month, readNat?_eq_some_iff.2 p.writes_day,
    Option.bind_eq_bind, Option.bind_some, p.ofCivil?_eq]
  rfl

/-- Over words without digits the text of a date is one match, that day. -/
theorem matches?_eq_ok (undigited : t.Undigited) {o : Options}
    (room : o.HasRoom ∨ ∀ key, "-" ∉ t.words [language] key) :
    (ofTable t language).matches? p.text o =
      .ok [⟨0, String.ofList p.text, ⟨d, o.reference.time⟩, .calendarDay⟩] := by
  have whole := p.prefers_isoRule
  have meant := p.isoMeaning_eq_ok o
  refine matches?_of_whole (by simp [rules]) whole p.text_ne_nil meant ?_
  intro rule listed
  have harmless : ∀ stated, NeedsDash t language p.text rule →
      (ofTable t language).Agrees p.text o stated rule :=
    fun _ needs => needs.agrees listed room
  simp only [rules, List.mem_cons, List.not_mem_nil, or_false] at listed
  rcases listed with rfl | rfl | rfl | rfl | rfl | rfl | rfl
  · exact agrees_of_whole whole p.text_ne_nil meant
  · exact harmless _ (p.needsDash_oneOf undigited (by simp [wordLists]) _)
  · exact harmless _ (p.needsDash_oneOf undigited (by simp [wordLists]) _)
  · exact harmless _ (p.needsDash_oneOf undigited (by simp [wordLists]) _)
  · exact harmless _ (p.needsDash_oneOf undigited (by simp [wordLists]) _)
  · exact harmless _ (p.needsDash_ordinalRule undigited)
  · exact harmless _ (p.needsDash_timeRule undigited)

end DateDigits

end DatePhrase
