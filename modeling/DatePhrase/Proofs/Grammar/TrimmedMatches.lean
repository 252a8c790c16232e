import DatePhrase.Proofs.Grammar.GreedyMatches
import DatePhrase.Proofs.Grammar.LanguageWords
import DatePhrase.Proofs.Text.SolidEnds

/-! Matches and the blanks around a text. Every rule begins and ends with a digit or a word, and no
word of a table has a blank at its ends, so no match does. Main statement: the matches of a reading
lie in the text without the blanks around it, and one that is as long covers it, alone. -/
namespace DatePhrase
open Text Calendar

theorem exists_of_mem_mapM {ε α β : Type} {f : α → Except ε β} {inputs : List α}
    {results : List β} (h : inputs.mapM f = .ok results) : ∀ a ∈ inputs, ∃ b, f a = .ok b := by
  induction inputs generalizing results with
  | nil => simp
  | cons a inputs ih =>
    rw [List.mapM_cons] at h
    obtain ⟨b, first, h⟩ := exists_of_bind_eq_ok h
    obtain ⟨later, others, -⟩ := exists_of_bind_eq_ok h
    exact List.forall_mem_cons.2 ⟨⟨b, first⟩, ih others⟩

theorem exists_of_mem_filterMapM {ε α β : Type} {f : α → Except ε (Option β)} {inputs : List α}
    {results : List β} (h : inputs.filterMapM f = .ok results) :
    ∀ a ∈ inputs, ∃ b, f a = .ok b := by
  induction inputs generalizing results with
  | nil => simp
  | cons a inputs ih =>
    rw [List.filterMapM_cons] at h
    obtain ⟨b, first, h⟩ := exists_of_bind_eq_ok h
    refine List.forall_mem_cons.2 ⟨⟨b, first⟩, ?_⟩
    cases b with
    | none => exact ih h
    | some b =>
      obtain ⟨later, others, -⟩ := exists_of_bind_eq_ok h
      exact ih others

namespace Match

/-- The match is the text without the blanks around it, in its place. -/
def Covers (m : Match) (text : String) : Prop :=
  m.text = trim text ∧ m.index = Casual.byteLength (text.toList.takeWhile isBlank)

/-- The match has its text from the text, behind as many bytes as it says. -/
def IsSlice (m : Match) (text : String) : Prop :=
  ∃ before after, text.toList = before ++ (m.text.toList ++ after) ∧
    m.index = Casual.byteLength before

theorem Covers.length_eq {m : Match} {text : String} (covers : m.Covers text) :
    m.length = (trim text).length := by
  rw [length, covers.1]

end Match

namespace Casual
open Cut

section Reading
variable {g : Casual} {text : List Char} {o : Options}

theorem staysOver_of_candidatesOf {rule : Rule} {spans : List (Span Stated)}
    (h : g.candidatesOf text o rule = .ok spans) : g.StaysOver text o rule := by
  intro s scanned delimited
  obtain ⟨b, mapped⟩ := exists_of_mem_filterMapM h s (List.mem_filter.2 ⟨scanned, delimited⟩)
  obtain ⟨x, meant, -⟩ := exists_of_bind_eq_ok mapped
  exact ⟨x, meant⟩

/-- A reading that has a result stays in the calendar, and the result is what it keeps. -/
theorem matches?_eq_ok_iff {found : List Match} : g.matches? text o = .ok found ↔
    (∀ rule ∈ g.rules, g.StaysOver text o rule) ∧
      (g.keptSpans text o).map (toMatch text) = found := by
  constructor
  · intro h
    obtain ⟨spans, collected, -⟩ := exists_of_bind_eq_ok h
    rw [candidates, map_eq_pure_bind] at collected
    obtain ⟨parts, each, -⟩ := exists_of_bind_eq_ok collected
    have stays : ∀ rule ∈ g.rules, g.StaysOver text o rule := fun rule listed => by
      obtain ⟨part, own⟩ := exists_of_mem_mapM each rule listed
      exact staysOver_of_candidatesOf own
    rw [matches?_eq_keptSpans stays] at h
    exact ⟨stays, Except.ok.inj h⟩
  · rintro ⟨stays, rfl⟩
    exact matches?_eq_keptSpans stays

end Reading

section Rules
variable {t : Table} {language : String} {rule : Rule}

theorem solid_of_mem_words {languages : List String} {key w : String}
    (listed : w ∈ t.words languages key) : Solid w.toList :=
  ⟨by simpa using Table.ne_empty_of_mem_words listed, Table.stops_of_mem_words listed,
    Table.tight_of_mem_words listed⟩

theorem solid_immediateWords : ∀ w ∈ (ofTable t language).immediateWords, Solid w.toList := by
  intro w listed
  obtain ⟨i, own⟩ := mem_immediateWords.1 listed
  exact solid_of_mem_words own

theorem solid_dayWords : ∀ w ∈ (ofTable t language).dayWords, Solid w.toList := by
  intro w listed
  obtain ⟨day, own⟩ := mem_dayWords.1 listed
  exact solid_of_mem_words own

theorem solid_unitWords : ∀ w ∈ (ofTable t language).unitWords, Solid w.toList := by
  intro w listed
  obtain ⟨unit, own⟩ := mem_unitWords.1 listed
  exact solid_of_mem_words own

theorem solid_periodWords : ∀ w ∈ (ofTable t language).periodWords, Solid w.toList := by
  intro w listed
  obtain ⟨listed, filled⟩ := Vocabulary.mem_arrange.1 listed
  exact solid_unitWords w (Vocabulary.mem_arrange.2 ⟨(List.mem_filter.1 listed).1, filled⟩)

theorem solid_keyed {languages : List String} {key : String} :
    ∀ w ∈ Vocabulary.arrange (t.words languages key), Solid w.toList :=
  fun _ listed => solid_of_mem_words (Vocabulary.mem_arrange_words.1 listed)

theorem clear_of_isDigit (c : Char) (digit : isDigit c) : isBlank c = false :=
  isBlank_of_isDigit digit

theorem opens_cutClock (g : Casual) : g.cutClock.Opens :=
  .or (.or (.bind (opens_oneTo clear_of_isDigit 2)) (.bind (opens_oneTo clear_of_isDigit 2)))
    (.bind (opens_oneTo clear_of_isDigit 2))

theorem ends_cutClock : (ofTable t language).cutClock.Ends :=
  .or (.or
    (.behind (forward_oneTo _ _) fun _ =>
      .behind (.optional (.bind (forward_char _) fun _ => forward_exactly _ _)) fun _ =>
      .behind (forward_many _) fun _ => .bind (ends_oneOf (by decide)) fun _ => closes_pure _)
    (.behind (forward_oneTo _ _) fun _ => .behind (forward_char _) fun _ =>
      .bind (ends_exactly clear_of_isDigit 1) fun _ => closes_pure _))
    (.behind (forward_oneTo _ _) fun _ => .behind (forward_many _) fun _ =>
      .bind (ends_oneOf solid_keyed) fun _ =>
      .bind (.optional (.behind (forward_many _) fun _ => ends_exactly clear_of_isDigit 1)) fun _ =>
      .bind (.optional (.behind (forward_many _) fun _ => ends_oneOf solid_keyed)) fun _ =>
      closes_pure _)

theorem closes_cutTrailing : (ofTable t language).cutTrailing.Closes := by
  rw [cutTrailing_eq]
  exact .optional (.behind (.optional (.bind (forward_many _) fun _ => forward_oneOf _)) fun _ =>
    .behind (forward_many _) fun _ =>
    .bind (ends_cutClock.taken (forward_cutClock _)) fun _ => closes_pure _)

/-- Every rule begins with a digit or with a word. -/
theorem opens_of_mem_rules (listed : rule ∈ (ofTable t language).rules) : Cut.Opens rule := by
  simp only [rules, List.mem_cons, List.not_mem_nil, or_false] at listed
  rcases listed with rfl | rfl | rfl | rfl | rfl | rfl | rfl
  · exact .bind (opens_exactly clear_of_isDigit 3)
  · exact .bind (opens_oneOf solid_immediateWords)
  · exact .bind (opens_oneOf solid_dayWords)
  · exact .bind (opens_oneOf solid_keyed)
  · exact .bind (opens_oneOf solid_keyed)
  · exact .bind (opens_oneTo clear_of_isDigit 2)
  · rw [timeRule_eq]
    exact .bind ((opens_cutClock _).taken (forward_cutClock _))

/-- Every rule ends with a digit or with a word. -/
theorem ends_of_mem_rules (listed : rule ∈ (ofTable t language).rules) : Cut.Ends rule := by
  simp only [rules, List.mem_cons, List.not_mem_nil, or_false] at listed
  rcases listed with rfl | rfl | rfl | rfl | rfl | rfl | rfl
  · exact .behind (forward_exactly _ _) fun _ => .behind (forward_char _) fun _ =>
      .behind (forward_oneTo _ _) fun _ => .behind (forward_char _) fun _ =>
      .bind (ends_oneTo clear_of_isDigit 2) fun _ => closes_pure _
  · exact .bind (ends_oneOf solid_immediateWords) fun _ => .bind closes_cutTrailing fun _ =>
      closes_pure _
  · exact .bind (ends_oneOf solid_dayWords) fun _ => .bind closes_cutTrailing fun _ => closes_pure _
  · exact .behind (forward_oneOf _) fun _ => .behind (forward_cutSpace _) fun _ =>
      .behind (forward_oneTo _ _) fun _ => .behind (forward_many _) fun _ =>
      .bind (ends_oneOf solid_unitWords) fun _ => .bind closes_cutTrailing fun _ => closes_pure _
  · exact .behind (forward_oneOf _) fun _ => .behind (forward_cutSpace _) fun _ =>
      .bind (ends_oneOf solid_periodWords) fun _ => closes_pure _
  · exact .behind (forward_oneTo _ _) fun _ => .bind (ends_oneOf solid_keyed) fun _ =>
      closes_pure _
  · rw [timeRule_eq]
    exact .bind (ends_cutClock.taken (forward_cutClock _)) fun _ => closes_pure _

/-- No span that a rule of a table's language states has a blank at its ends. -/
theorem solid_of_mem_statedSpans {text : List Char} {o : Options} {s : Span Stated}
    (listed : rule ∈ (ofTable t language).rules)
    (found : s ∈ (ofTable t language).statedSpans text o rule) : Solid s.text := by
  obtain ⟨meaning, scanned, -, -⟩ := mem_statedSpans.1 found
  exact solid_of_mem_scan (opens_of_mem_rules listed) (ends_of_mem_rules listed)
    (forward_of_mem_rules listed) scanned

end Rules

section Trimmed
variable {text : List Char} {s : Span Stated}

/-- The span lies between the blanks around the text. -/
structure Trimmed (text : List Char) (s : Span Stated) : Prop extends Stands text s where
  front : (text.takeWhile isBlank).length ≤ s.start
  back : s.stop ≤ (text.takeWhile isBlank).length + (trimBlanks text).length
  whole : s.text.length = (trimBlanks text).length →
    s.text = trimBlanks text ∧ text.take s.start = text.takeWhile isBlank

theorem Stands.trimmed (stands : Stands text s) (solid : Solid s.text) : Trimmed text s := by
  obtain ⟨x, y, inside, place⟩ := solid.within_trimBlanks stands.parts
  have start := congrArg List.length place
  have width := congrArg List.length inside
  rw [List.length_take_of_le stands.start_le] at start
  simp only [List.length_append] at start width
  refine ⟨stands, by omega, by rw [Span.stop]; omega, fun whole => ?_⟩
  have nothing : x = [] := List.length_eq_zero_iff.1 (by omega)
  have nothing' : y = [] := List.length_eq_zero_iff.1 (by omega)
  rw [inside, place, nothing, nothing', List.nil_append, List.append_nil, List.append_nil]
  exact ⟨rfl, rfl⟩

theorem Trimmed.length_le (trimmed : Trimmed text s) :
    s.text.length ≤ (trimBlanks text).length := by
  have front := trimmed.front
  have back := trimmed.back
  rw [Span.stop] at back
  omega

/-- Beside a span as long as the text between the blanks there is no other. -/
theorem eq_singleton_of_whole {spans : List (Span Stated)}
    (apart : spans.Pairwise fun s r => s.stop ≤ r.start) (trimmed : ∀ r ∈ spans, Trimmed text r)
    (member : s ∈ spans) (whole : s.text.length = (trimBlanks text).length) : spans = [s] := by
  obtain ⟨before, after, rfl⟩ := List.append_of_mem member
  obtain ⟨-, behind, ahead⟩ := List.pairwise_append.1 apart
  have place : ∀ r ∈ before ++ s :: after,
      s.start ≤ r.start ∧ r.start < r.stop ∧ r.stop ≤ s.stop := by
    intro r hr
    have own := trimmed s member
    have other := trimmed r hr
    have first := own.back
    have front := other.front
    have back := other.back
    have long := own.front
    simp only [Span.stop] at first back ⊢
    have nonempty := List.length_pos_iff.2 other.nonempty
    omega
  have none : before = [] := by
    refine List.eq_nil_iff_forall_not_mem.2 fun r hr => ?_
    have overlap := place r (List.mem_append_left _ hr)
    have stop := ahead r hr s List.mem_cons_self
    omega
  have none' : after = [] := by
    refine List.eq_nil_iff_forall_not_mem.2 fun r hr => ?_
    have overlap := place r (List.mem_append_right _ (List.mem_cons_of_mem s hr))
    have stop := (List.pairwise_cons.1 behind).1 r hr
    omega
  rw [none, none', List.nil_append]

end Trimmed

section Matches
variable {t : Table} {language text : String} {o : Options} {found : List Match} {m : Match}

theorem trimmed_of_mem_keptSpans {text : List Char} {s : Span Stated}
    (kept : s ∈ (ofTable t language).keptSpans text o) : Trimmed text s := by
  obtain ⟨rule, listed, stated⟩ := exists_rule_of_mem_keptSpans kept
  exact (stands_of_mem_statedSpans listed stated).trimmed (solid_of_mem_statedSpans listed stated)

theorem map_keptSpans_of_read (reads : (ofTable t language).grammar.read text o = .ok found) :
    ((ofTable t language).keptSpans text.toList o).map (toMatch text.toList) = found := by
  cases spans : (ofTable t language).matches? text.toList o with
  | error e => simp [grammar, spans, Except.mapError] at reads
  | ok matched =>
    rw [read_eq_ok spans] at reads
    exact (matches?_eq_ok_iff.1 spans).2.trans (Except.ok.inj reads)

/-- Each match is a slice of the text, no longer than the text without the blanks around it. -/
theorem isSlice_of_mem_read (reads : (ofTable t language).grammar.read text o = .ok found)
    (member : m ∈ found) : m.IsSlice text ∧ m.length ≤ (trim text).length := by
  obtain rfl := map_keptSpans_of_read reads
  obtain ⟨s, kept, rfl⟩ := List.mem_map.1 member
  have trimmed := trimmed_of_mem_keptSpans kept
  refine ⟨⟨text.toList.take s.start, text.toList.drop s.stop, ?_, rfl⟩, ?_⟩
  · rw [toMatch, String.toList_ofList]
    exact trimmed.parts
  · rw [Match.length, toMatch, trim, String.length_ofList, String.length_ofList]
    exact trimmed.length_le

/-- A match that is as long as the text between the blanks covers it and is the only one. -/
theorem covers_of_mem_read (reads : (ofTable t language).grammar.read text o = .ok found)
    (member : m ∈ found) (whole : m.length = (trim text).length) :
    m.Covers text ∧ found = [m] := by
  obtain rfl := map_keptSpans_of_read reads
  obtain ⟨s, kept, rfl⟩ := List.mem_map.1 member
  rw [Match.length, toMatch, trim, String.length_ofList, String.length_ofList] at whole
  obtain ⟨same, place⟩ := (trimmed_of_mem_keptSpans kept).whole whole
  have apart : ((ofTable t language).keptSpans text.toList o).Pairwise fun s r =>
      s.stop ≤ r.start := pairwise_selectFrom
  refine ⟨⟨by rw [toMatch, same, trim], by rw [toMatch, place]⟩, ?_⟩
  rw [eq_singleton_of_whole apart (fun r => trimmed_of_mem_keptSpans) kept whole, List.map_singleton]

end Matches

end Casual

end DatePhrase
