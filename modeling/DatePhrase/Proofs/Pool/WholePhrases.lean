import DatePhrase.Proofs.Grammar.TrimmedMatches
import DatePhrase.Proofs.Pool.Arbitration

/-! Readers of whole phrases in a pool. The English grammar puts the whole phrase before the casual
matches unless one of them covers the text already; no vote is longer than the text without the
blanks around it. Main statement: beside a reader that understands the phrase no grammar of any
language wins with less than the whole of it. -/
namespace DatePhrase
open Text Calendar

namespace Match
variable {m : Match} {text : String}

theorem Covers.isSlice (covers : m.Covers text) : m.IsSlice text := by
  obtain ⟨gap, -, ended⟩ := exists_trimEnd (trimStart text.toList)
  have whole : text.toList.takeWhile isBlank ++ trimStart text.toList = text.toList :=
    List.takeWhile_append_dropWhile
  refine ⟨text.toList.takeWhile isBlank, gap, ?_, covers.2⟩
  rw [covers.1, trim, String.toList_ofList, trimBlanks, ended, whole]

end Match

namespace English
variable {reader : PhraseReader} {casual : Casual} {text : String} {o : Options}
  {found : List Match} {m : Match}

/-- What the reader of phrases is asked about a text. -/
def query (text : String) (o : Options) : PhraseQuery :=
  ⟨trim text, o.reference, !o.forward, o.weekStart = .monday⟩

theorem wholePhrase_of_blank (blank : trim text = "") : wholePhrase reader text o = .ok none := by
  simp [wholePhrase, blank]

theorem wholePhrase_of_unknown (unknown : reader (query text o) = .unknown) :
    wholePhrase reader text o = .ok none := by
  rw [query] at unknown
  simp [wholePhrase, unknown]

theorem wholePhrase_of_broken (filled : trim text ≠ "") (broken : reader (query text o) = .broken) :
    wholePhrase reader text o = .error (.failed (breakdownText (trim text))) := by
  rw [query] at broken
  simp [wholePhrase, filled, broken]

theorem wholePhrase_of_span (filled : trim text ≠ "") {start stop : Instant}
    (understood : reader (query text o) = .span start stop) :
    wholePhrase reader text o = .ok (some ⟨Casual.byteLength (text.toList.takeWhile isBlank),
      trim text, start, certaintyOf start stop⟩) := by
  rw [query] at understood
  simp [wholePhrase, filled, understood]

theorem covers_of_wholePhrase (h : wholePhrase reader text o = .ok (some m)) : m.Covers text := by
  unfold wholePhrase at h
  dsimp only at h
  split at h
  · cases h
  · split at h
    · cases h
    · cases h
    · obtain rfl := Option.some.inj (Except.ok.inj h)
      exact ⟨rfl, rfl⟩

/-- The English grammar fails where the casual rules do. -/
theorem read_of_error {e : ReadError} (fails : casual.grammar.read text o = .error e) :
    (grammar reader casual).read text o = .error e := by
  simp only [grammar, fails]
  rfl

/-- A casual match as long as the text between the blanks leaves nothing to ask. -/
theorem read_of_whole (reads : casual.grammar.read text o = .ok found) (member : m ∈ found)
    (whole : m.length = (trim text).length) :
    (grammar reader casual).read text o = .ok found := by
  have any : found.any (·.length == (trim text).length) :=
    List.any_eq_true.2 ⟨m, member, beq_iff_eq.2 whole⟩
  simp only [grammar, reads, bind, Except.bind, any, if_true]
  rfl

/-- Otherwise the whole phrase comes before the casual matches. -/
theorem read_of_partial (reads : casual.grammar.read text o = .ok found)
    (part : ∀ m ∈ found, m.length ≠ (trim text).length) :
    (grammar reader casual).read text o =
      (wholePhrase reader text o).map fun whole => whole.toList ++ found := by
  have none : found.any (·.length == (trim text).length) = false := by
    rw [List.any_eq_false]
    intro m member
    simpa using part m member
  simp only [grammar, reads, bind, Except.bind, none, Bool.false_eq_true, if_false]
  cases wholePhrase reader text o with
  | error e => rfl
  | ok whole => cases whole <;> rfl

/-- Every match of the English grammar is a whole phrase or one of the casual rules. -/
theorem covers_or_mem_of_read {layered : List Match}
    (reads : (grammar reader casual).read text o = .ok layered) (member : m ∈ layered) :
    m.Covers text ∨ ∃ found, casual.grammar.read text o = .ok found ∧ m ∈ found := by
  cases casually : casual.grammar.read text o with
  | error e =>
    rw [read_of_error casually] at reads
    cases reads
  | ok found =>
    by_cases whole : ∃ n ∈ found, n.length = (trim text).length
    · obtain ⟨n, listed, long⟩ := whole
      rw [read_of_whole casually listed long] at reads
      exact .inr ⟨found, rfl, Except.ok.inj reads ▸ member⟩
    · have part : ∀ n ∈ found, n.length ≠ (trim text).length := fun n listed long =>
        whole ⟨n, listed, long⟩
      rw [read_of_partial casually part] at reads
      cases asked : wholePhrase reader text o with
      | error e =>
        rw [asked] at reads
        cases reads
      | ok answer =>
        rw [asked] at reads
        obtain rfl := Except.ok.inj reads
        rcases List.mem_append.1 member with own | other
        · obtain rfl := Option.mem_toList.1 own
          exact .inl (covers_of_wholePhrase asked)
        · exact .inr ⟨found, rfl, other⟩

/-- A reading over the casual matches: they count alone where one of them covers the text or the
reader of phrases has nothing to say; else the reader's failure or its whole phrase goes first. -/
structure Layers (reader : PhraseReader) (text : String) (o : Options) (found : List Match)
    (read : Except ReadError (List Match)) : Prop where
  covered : (∃ m ∈ found, m.Covers text) → read = .ok found
  blank : trim text = "" → read = .ok found
  unknown : reader (query text o) = .unknown → read = .ok found
  broken : (∀ m ∈ found, ¬ m.Covers text) → trim text ≠ "" → reader (query text o) = .broken →
    read = .error (.failed (breakdownText (trim text)))
  understood : (∀ m ∈ found, ¬ m.Covers text) → trim text ≠ "" → ∀ start stop,
    reader (query text o) = .span start stop → ∃ whole : Match, whole.Covers text ∧
      whole.start = start ∧ whole.certain = certaintyOf start stop ∧ read = .ok (whole :: found)

theorem layers_read {t : Table} {language : String}
    (reads : (Casual.ofTable t language).grammar.read text o = .ok found) :
    Layers reader text o found ((grammar reader (Casual.ofTable t language)).read text o) := by
  have short : (∀ m ∈ found, ¬ m.Covers text) → ∀ m ∈ found, m.length ≠ (trim text).length :=
    fun uncovered m member whole =>
      uncovered m member (Casual.covers_of_mem_read reads member whole).1
  have silent : wholePhrase reader text o = .ok none →
      (grammar reader (Casual.ofTable t language)).read text o = .ok found := fun asked => by
    by_cases whole : ∃ m ∈ found, m.length = (trim text).length
    · obtain ⟨m, member, long⟩ := whole
      exact read_of_whole reads member long
    · rw [read_of_partial reads fun m member long => whole ⟨m, member, long⟩, asked]
      rfl
  constructor
  · rintro ⟨m, member, covers⟩
    exact read_of_whole reads member covers.length_eq
  · exact fun blank => silent (wholePhrase_of_blank blank)
  · exact fun unknown => silent (wholePhrase_of_unknown unknown)
  · intro uncovered filled broken
    rw [read_of_partial reads (short uncovered), wholePhrase_of_broken filled broken]
    rfl
  · intro uncovered filled start stop understood
    refine ⟨⟨_, _, start, certaintyOf start stop⟩, ⟨rfl, rfl⟩, rfl, rfl, ?_⟩
    rw [read_of_partial reads (short uncovered), wholePhrase_of_span filled understood]
    rfl

end English

/-- The casual rules fail only by leaving the calendar. -/
theorem Casual.eq_outOfCalendar_of_read {g : Casual} {text : String} {o : Options} {e : ReadError}
    (fails : g.grammar.read text o = .error e) : e = .outOfCalendar := by
  cases matched : g.matches? text.toList o with
  | ok found =>
    rw [read_eq_ok matched] at fails
    cases fails
  | error fault =>
    cases fault
    simp only [grammar, matched] at fails
    exact (Except.error.inj fails).symm

namespace Grammar

/-- The grammars that a pool is made of: the casual rules of a language, alone or under a reader of
whole phrases. -/
inductive Bundled (reader : PhraseReader) : Grammar → Prop
  | casual (t : Table) (language : String) : Bundled reader (Casual.ofTable t language).grammar
  | english (t : Table) (language : String) :
      Bundled reader (English.grammar reader (Casual.ofTable t language))

variable {reader : PhraseReader} {g : Grammar} {text : String} {o : Options} {m : Match}

/-- A match that lies between the blanks around the text and covers it if it is as long. -/
structure Fits (text : String) (m : Match) : Prop where
  isSlice : m.IsSlice text
  length_le : m.length ≤ (trim text).length
  covers : m.length = (trim text).length → m.Covers text

theorem Bundled.fits (bundled : g.Bundled reader) (first : g.first? text o = some m) :
    Fits text m := by
  have casual : ∀ {t language found}, (Casual.ofTable t language).grammar.read text o = .ok found →
      m ∈ found → Fits text m := fun reads member =>
    have ⟨slice, short⟩ := Casual.isSlice_of_mem_read reads member
    ⟨slice, short, fun whole => (Casual.covers_of_mem_read reads member whole).1⟩
  unfold first? at first
  split at first
  · rename_i found reads
    have member : m ∈ found := List.mem_of_head? first
    cases bundled with
    | casual t language => exact casual reads member
    | english t language =>
      rcases English.covers_or_mem_of_read reads member with covers | ⟨own, reads', member'⟩
      · exact ⟨covers.isSlice, covers.length_eq.le, fun _ => covers⟩
      · exact casual reads' member'
  · cases first

theorem Bundled.read_ne (bundled : g.Bundled reader) (room : o.HasRoom) (text : String) :
    g.read text o ≠ .error .outOfCalendar := by
  cases bundled with
  | casual t language =>
    obtain ⟨found, reads⟩ := Casual.exists_read (g := Casual.ofTable t language) room text
    rw [reads]
    exact nofun
  | english t language => exact English.read_ne room text

/-- Where the reader of phrases understands the phrase the English vote covers the text. -/
theorem exists_first_of_understood {t : Table} {language : String}
    (stays : (English.grammar reader (Casual.ofTable t language)).read text o ≠
      .error .outOfCalendar) (filled : trim text ≠ "") {start stop : Instant}
    (understood : reader (English.query text o) = .span start stop) :
    ∃ m, (English.grammar reader (Casual.ofTable t language)).first? text o = some m ∧
      m.Covers text := by
  cases casually : (Casual.ofTable t language).grammar.read text o with
  | error e =>
    obtain rfl := Casual.eq_outOfCalendar_of_read casually
    exact absurd (English.read_of_error casually) stays
  | ok found =>
    have layers : English.Layers reader text o found
        ((English.grammar reader (Casual.ofTable t language)).read text o) :=
      English.layers_read casually
    by_cases covered : ∃ m ∈ found, m.Covers text
    · obtain ⟨m, member, covers⟩ := covered
      have alone := (Casual.covers_of_mem_read casually member covers.length_eq).2
      refine ⟨m, ?_, covers⟩
      rw [first?, layers.covered ⟨m, member, covers⟩, alone]
      rfl
    · have uncovered : ∀ m ∈ found, ¬ m.Covers text := fun m member covers =>
        covered ⟨m, member, covers⟩
      obtain ⟨whole, covers, -, -, reads⟩ :=
        layers.understood uncovered filled start stop understood
      refine ⟨whole, ?_, covers⟩
      rw [first?, reads]
      rfl

end Grammar

namespace Pool
variable {reader : PhraseReader} {p : Pool} {text : String} {o : Options}

theorem outcome_votes_eq_ok_iff {votes : List Match} :
    (p.votes text o).outcome = .ok votes ↔ p.Stays text o ∧ p.firsts text o = votes := by
  by_cases stays : p.Stays text o
  · simp [outcome_votes stays, stays]
  · simp [outcome_votes_of_leaves stays, stays]

theorem fits_of_mem_firsts (bundled : ∀ g ∈ p, g.Bundled reader) {m : Match}
    (voted : m ∈ p.firsts text o) : Grammar.Fits text m := by
  obtain ⟨g, member, first⟩ := List.mem_filterMap.1 voted
  exact (bundled g member).fits first

/-- A vote that covers the text is not beaten by one that does not. -/
theorem exists_best_of_covers (bundled : ∀ g ∈ p, g.Bundled reader) (stays : p.Stays text o)
    {m : Match} (voted : m ∈ p.firsts text o) (covers : m.Covers text) :
    ∃ n, (p.best text o).outcome = .ok (some n) ∧ n.Covers text := by
  cases elected : longest? (p.firsts text o) with
  | none =>
    rw [longest?_eq_none_iff.1 elected] at voted
    cases voted
  | some n =>
    have fits := fits_of_mem_firsts bundled (mem_of_longest? elected)
    have long : m.length ≤ n.length := unbeaten_of_longest? elected m voted
    refine ⟨n, by rw [outcome_best stays, elected], fits.covers ?_⟩
    exact Nat.le_antisymm fits.length_le (covers.length_eq ▸ long)

/-- Every vote of the bundled grammars is a slice of the text, no longer than the text between the
blanks around it. The English grammar layers whole phrases over the casual matches, and fails as the
casual rules do. A pool that stays in the calendar, as it does two weeks inside it, elects a match
that covers the text when its reader understands the phrase. -/
theorem whole_phrases (reader : PhraseReader) (p : Pool) (text : String) (o : Options)
    (bundled : ∀ g ∈ p, g.Bundled reader) :
    (∀ votes, (p.votes text o).outcome = .ok votes →
      ∀ m ∈ votes, m.IsSlice text ∧ m.length ≤ (trim text).length) ∧
    (∀ (t : Table) (language : String),
      let casual := Casual.ofTable t language
      (∀ found, casual.grammar.read text o = .ok found →
        English.Layers reader text o found ((English.grammar reader casual).read text o)) ∧
      (∀ e, casual.grammar.read text o = .error e →
        (English.grammar reader casual).read text o = .error e)) ∧
    (∀ (t : Table) (language : String) (start stop : Instant),
      English.grammar reader (Casual.ofTable t language) ∈ p → trim text ≠ "" →
      reader (English.query text o) = .span start stop → p.Stays text o →
      ∃ m, (p.best text o).outcome = .ok (some m) ∧ m.Covers text) ∧
    (o.reference.date.Inside 14 → p.Stays text o) := by
  refine ⟨?_, fun t language => ⟨fun found => English.layers_read, fun e => English.read_of_error⟩,
    ?_, ?_⟩
  · intro votes voted m member
    obtain ⟨-, rfl⟩ := outcome_votes_eq_ok_iff.1 voted
    have fits := fits_of_mem_firsts bundled member
    exact ⟨fits.isSlice, fits.length_le⟩
  · intro t language start stop member filled understood stays
    obtain ⟨m, first, covers⟩ :=
      Grammar.exists_first_of_understood (stays _ member) filled understood
    exact exists_best_of_covers bundled stays (List.mem_filterMap.2 ⟨_, member, first⟩) covers
  · intro inside g member
    exact (bundled g member).read_ne (Options.hasRoom_of_inside inside o.forward o.weekStart) text

/-- A date that the casual rules read in part, among blanks, in a pool of two languages. -/
theorem whole_phrases_date :
    let day : Instant := ⟨⟨-240, by decide, by decide⟩, .midnight⟩
    let next : Instant := ⟨⟨-239, by decide, by decide⟩, .midnight⟩
    let reader : PhraseReader := fun q => if q.phrase = "may 6, 1969" then .span day next else .broken
    let t := (Table.empty.insert "de" "today" "may").insert "en" "today" "today"
    let english := English.grammar reader (Casual.ofTable t "en")
    let p : Pool := [(Casual.ofTable t "de").grammar, english]
    let o := Options.plain ⟨⟨20742, by decide, by decide⟩, .midnight⟩ .monday
    let text := " may 6, 1969 "
    (∀ g ∈ p, g.Bundled reader) ∧ o.reference.date.Inside 14 ∧ p.Stays text o ∧
      ∃ m, (p.best text o).outcome = .ok (some m) ∧ m.text = "may 6, 1969" ∧ m.index = 1 := by
  intro day next reader t english p o text
  have bundled : ∀ g ∈ p, g.Bundled reader :=
    List.forall_mem_cons.2 ⟨.casual t "de", List.forall_mem_singleton.2 (.english t "en")⟩
  obtain ⟨-, -, elected, stays⟩ := whole_phrases reader p text o bundled
  have inside : o.reference.date.Inside 14 := by decide
  have understood : reader (English.query text o) = .span day next := by decide +kernel
  obtain ⟨m, best, same, place⟩ := elected t "en" day next (by simp [p, english])
    (by decide +kernel) understood (stays inside)
  exact ⟨bundled, inside, stays inside, m, best, same.trans (by decide +kernel),
    place.trans (by decide +kernel)⟩

/-- On the last day of the calendar a word for tomorrow in the phrase leads out of it, though the
reader understands the phrase. -/
theorem whole_phrases_lost :
    ¬ ∀ (reader : PhraseReader) (p : Pool) (text : String) (o : Options) (t : Table)
        (language : String) (start stop : Instant), (∀ g ∈ p, g.Bundled reader) →
      English.grammar reader (Casual.ofTable t language) ∈ p → trim text ≠ "" →
      reader (English.query text o) = .span start stop →
      ∃ m, (p.best text o).outcome = .ok (some m) ∧ m.Covers text := by
  intro wins
  let day : Instant := ⟨⟨-240, by decide, by decide⟩, .midnight⟩
  let next : Instant := ⟨⟨-239, by decide, by decide⟩, .midnight⟩
  let reader : PhraseReader := fun _ => .span day next
  let t := Table.empty.insert "en" "tomorrow" "may"
  let english := English.grammar reader (Casual.ofTable t "en")
  let last : Instant := ⟨⟨lastDay, by decide, by decide⟩, ⟨10 * nanosPerHour, by decide, false⟩⟩
  let o := Options.plain last .sunday
  have lost : (best [english] "may 6, 1969" o).outcome = .error .outOfCalendar := by
    decide +kernel
  obtain ⟨m, won, -⟩ := wins reader [english] "may 6, 1969" o t "en" day next
    (List.forall_mem_singleton.2 (.english t "en")) (by simp [english]) (by decide +kernel) rfl
  rw [lost] at won
  cases won

end Pool

end DatePhrase
