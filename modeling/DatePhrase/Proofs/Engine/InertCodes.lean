import DatePhrase.Proofs.Engine.Outcomes
import DatePhrase.Proofs.Phrase.Offsets
import DatePhrase.Proofs.Phrase.Weekdays
import Mathlib.Logic.Relation

/-! Codes that make no difference. An engine is made for the languages that the table has, each once,
in the order in which they first stand in the list. A code that the table lacks may stand anywhere
and a code may be repeated anywhere behind itself: neither changes that order. Main statement: such
lists give one engine, which without any language answers every text with the present instant. -/
namespace DatePhrase
open Text Calendar

namespace Vocabulary
variable {t : Table} {text : String}
open Cut

theorem not_spells_nil {word : List Char} : ¬ Spells [] word := by
  rintro ⟨w, listed, -⟩
  exact List.not_mem_nil listed

/-- Every shape needs a word of some kind, and without languages there are no words. -/
theorem recognizeAs_of_no_languages (shape : Shape) :
    (ofTable t []).recognizeAs text shape = none := by
  have noWithin : (ofTable t []).within = [] := by simp [ofTable, Table.words, arrange]
  have noDays : (ofTable t []).dayWords = [] := by
    simp [ofTable, dayMeanings, meanings, Table.words, arrange, Weekday.all]
  rw [Option.eq_none_iff_forall_ne_some]
  intro phrase claimed
  cases shape <;> simp only [recognizeAs, Option.bind_eq_bind, Option.bind_eq_some_iff,
    Option.map_eq_some_iff, Option.pure_def, Option.some.injEq, Prod.exists] at claimed
  case immediate =>
    obtain ⟨i, entry, -⟩ := claimed
    have listed := mem_immediate_ofTable.1 (mem_of_lookup entry)
    exact List.not_mem_nil listed
  case combinedOffset =>
    obtain ⟨_, _, _, _, way, -⟩ := claimed
    obtain ⟨_, _, _, _, _, _, _, _, _, -, -, ⟨opens, -⟩, -⟩ := mem_cutCombined.1 (mem_of_all? way)
    exact not_spells_nil (noWithin ▸ opens)
  case relativeOffset =>
    obtain ⟨_, _, way, -⟩ := claimed
    obtain ⟨_, _, _, _, _, -, -, opens, -⟩ := mem_cutRelative.1 (mem_of_all? way)
    exact not_spells_nil (noWithin ▸ opens)
  case weekdayRange =>
    obtain ⟨_, _, way, -⟩ := claimed
    obtain ⟨_, _, _, _, _, _, _, -, -, -, -, -, named, -⟩ := mem_cutRange.1 (mem_of_all? way)
    exact not_spells_nil (noDays ▸ named)
  case weekdayAt =>
    obtain ⟨_, _, _, way, -⟩ := claimed
    obtain ⟨_, _, _, _, -, -, ⟨-, named⟩, -⟩ := mem_cutWeekdayAt.1 (mem_of_all? way)
    exact not_spells_nil (noDays ▸ named)
  case weekday =>
    obtain ⟨_, _, way, -⟩ := claimed
    obtain ⟨_, _, -, -, -, -, named⟩ := mem_cutWeekday.1 (mem_of_all? way)
    exact not_spells_nil (noDays ▸ named)

theorem recognize_of_no_languages : (ofTable t []).recognize text = none :=
  List.findSome?_eq_none_iff.2 fun shape _ => recognizeAs_of_no_languages shape

theorem nextPeriod?_of_no_languages : (ofTable t []).nextPeriod? text = none := by
  have noNext : (ofTable t []).following = [] := by simp [ofTable, Table.words, arrange]
  have unread : (ofTable t []).cutNext.scan text.toList = [] := by
    rw [List.eq_nil_iff_forall_not_mem]
    intro span found
    obtain ⟨s, rest, way⟩ := mem_scan found
    obtain ⟨word, mid, opens, -⟩ := mem_bind.1 way
    rw [noNext] at opens
    exact List.not_mem_nil opens
  rw [nextPeriod?, unread]
  rfl

end Vocabulary

namespace Engine
variable {t : Table} {languages padded : List String}

/-- One more code stands in the list, one that the table lacks or that stands before it already. -/
inductive Pads (t : Table) : List String → List String → Prop
  | lacking (before after : List String) {code : String} (unknown : t.hasLanguage code = false) :
      Pads t (before ++ after) (before ++ code :: after)
  | repeated (before after : List String) {code : String} (known : code ∈ before) :
      Pads t (before ++ after) (before ++ code :: after)

theorem Pads.ne_nil (pads : Pads t languages padded) : padded ≠ [] := by
  cases pads <;> simp

theorem supported_eq (nonempty : languages ≠ []) :
    supported t languages = (languages.filter t.hasLanguage).eraseDups := by
  rw [supported, requested, if_neg (by simpa using nonempty)]

/-- One more such code changes nothing about the languages of the engine. -/
theorem supported_of_pads (nonempty : languages ≠ []) (pads : Pads t languages padded) :
    supported t padded = supported t languages := by
  rw [supported_eq nonempty, supported_eq pads.ne_nil]
  cases pads with
  | lacking before after unknown => simp [unknown]
  | @repeated before after code known =>
    by_cases listed : t.hasLanguage code
    · rw [List.filter_append, List.filter_append, List.filter_cons_of_pos listed]
      exact eraseDups_append_cons (List.mem_filter.2 ⟨known, listed⟩)
    · simp [listed]

/-- Nor do any number of them. -/
theorem supported_of_padded (nonempty : languages ≠ [])
    (padding : Relation.ReflTransGen (Pads t) languages padded) :
    supported t padded = supported t languages := by
  suffices padded ≠ [] ∧ supported t padded = supported t languages from this.2
  induction padding with
  | refl => exact ⟨nonempty, rfl⟩
  | tail _ pads ih => exact ⟨pads.ne_nil, (supported_of_pads ih.1 pads).trans ih.2⟩

theorem mem_supported (nonempty : languages ≠ []) {code : String} :
    code ∈ supported t languages ↔ code ∈ languages ∧ t.hasLanguage code := by
  rw [supported_eq nonempty, List.mem_eraseDups, List.mem_filter]

/-- The languages of the engine come in the order in which they first stand in the list. -/
theorem pairwise_supported (nonempty : languages ≠ []) :
    (supported t languages).Pairwise fun a b => languages.idxOf a < languages.idxOf b := by
  rw [supported_eq nonempty]
  refine (pairwise_idxOf_eraseDups (languages.filter t.hasLanguage)).imp_of_mem ?_
  intro a b ha hb before
  exact idxOf_lt_of_filter (List.mem_filter.1 (List.mem_eraseDups.1 ha)).2
    (List.mem_filter.1 (List.mem_eraseDups.1 hb)).2 before

variable {reader : PhraseReader} {text : String} {preference : WeekStart} {now : Instant}

/-- Two lists with the same supported languages make the same engine. -/
theorem ofTable_congr (same : supported t padded = supported t languages) :
    ofTable reader t padded = ofTable reader t languages := by
  simp only [ofTable, ofPool, same]

/-- Without languages no text is understood. -/
theorem answers_of_no_languages (none : supported t languages = []) :
    let e := ofTable reader t languages
    e.date text preference now = pure now ∧ e.range text preference now = .ok Option.none ∧
      e.hasTime text now = pure false := by
  intro e
  have vocabulary : e.vocabulary = .ofTable t [] := by simp only [e, ofTable, ofPool, none]
  have pool : e.pool = [] := by simp only [e, ofTable, ofPool, none, List.filterMap_nil]
  have unclaimed : e.vocabulary.recognize (normalize text) = Option.none := by
    rw [vocabulary]
    exact Vocabulary.recognize_of_no_languages
  refine ⟨?_, ?_, ?_⟩
  · simp only [date, recognizedPoint_of_none unclaimed, pool]
    rfl
  · simp only [range, DateRange.ofText, vocabulary, Vocabulary.recognizeAs_of_no_languages,
      Vocabulary.nextPeriod?_of_no_languages]
    rfl
  · rw [hasTime_of_unclaimed unclaimed, pool]
    rfl

/-- Codes that the table lacks, anywhere, and repetitions, anywhere behind the first occurrence,
make no difference: the engine has the same languages and the same answers. These languages are
the codes of the list that the table has, in the order in which they first occur. If there are none,
every text is the present instant, without a range and without a time of day. -/
theorem answers_of_padded (reader : PhraseReader) (t : Table) (languages padded : List String)
    (nonempty : languages ≠ []) (padding : Relation.ReflTransGen (Pads t) languages padded) :
    let e := ofTable reader t languages
    let f := ofTable reader t padded
    (f.languages = e.languages ∧ ∀ text preference now,
      f.date text preference now = e.date text preference now ∧
        f.range text preference now = e.range text preference now ∧
        f.hasTime text now = e.hasTime text now) ∧
    ((∀ code, code ∈ e.languages ↔ code ∈ languages ∧ t.hasLanguage code) ∧
      e.languages.Pairwise fun a b => languages.idxOf a < languages.idxOf b) ∧
    ((∀ code ∈ languages, t.hasLanguage code = false) → ∀ text preference now,
      e.date text preference now = pure now ∧ e.range text preference now = .ok none ∧
        e.hasTime text now = pure false) := by
  intro e f
  have same : f = e := ofTable_congr (supported_of_padded nonempty padding)
  refine ⟨⟨by rw [same], fun text preference now => by rw [same]; exact ⟨rfl, rfl, rfl⟩⟩,
    ⟨fun code => mem_supported nonempty, pairwise_supported nonempty⟩, ?_⟩
  intro unknown text preference now
  have none : supported t languages = [] := by
    rw [List.eq_nil_iff_forall_not_mem]
    intro code listed
    obtain ⟨member, known⟩ := (mem_supported nonempty).1 listed
    rw [unknown code member] at known
    cases known
  exact answers_of_no_languages none

/-- An unknown code at both ends and a language repeated behind another, and then no known code at all. -/
theorem answers_of_padded_unknown :
    let t := (Table.empty.insert "nl" "tomorrow" "morgen").insert "fr" "tomorrow" "demain"
    let padded := ["tlh", "nl", "fr", "nl", "tlh"]
    let e := ofTable .silent t padded
    let f := ofTable .silent t ["tlh", "tlh"]
    let now : Instant := ⟨⟨20742, by decide, by decide⟩, .midnight⟩
    let later : Instant := ⟨⟨20743, by decide, by decide⟩, .midnight⟩
    (["nl", "fr"] ≠ [] ∧ Relation.ReflTransGen (Pads t) ["nl", "fr"] padded) ∧
      (e.languages = ["nl", "fr"] ∧ (e.date "demain" .localeDefault now).outcome = .ok later) ∧
      (∀ code ∈ ["tlh"], t.hasLanguage code = false) ∧
      f.date "demain" .localeDefault now = pure now ∧
      f.range "demain" .localeDefault now = .ok none ∧ f.hasTime "demain" now = pure false := by
  intro t padded e f now later
  have unknown : t.hasLanguage "tlh" = false := by decide +kernel
  have dutch : "nl" ∈ ["tlh", "nl", "fr"] := by decide
  have padding : Relation.ReflTransGen (Pads t) ["nl", "fr"] padded :=
    ((Relation.ReflTransGen.single (.lacking [] ["nl", "fr"] unknown)).tail
      (.repeated ["tlh", "nl", "fr"] [] dutch)).tail
      (.lacking ["tlh", "nl", "fr", "nl"] [] unknown)
  have alone : Relation.ReflTransGen (Pads t) ["tlh"] ["tlh", "tlh"] :=
    .single (.repeated ["tlh"] [] (List.mem_singleton_self "tlh"))
  obtain ⟨⟨same, answers⟩, -, -⟩ :=
    answers_of_padded .silent t ["nl", "fr"] padded (by decide) padding
  obtain ⟨⟨-, padded'⟩, -, lost⟩ :=
    answers_of_padded .silent t ["tlh"] ["tlh", "tlh"] (by decide) alone
  have none : ∀ code ∈ ["tlh"], t.hasLanguage code = false := by simpa using unknown
  obtain ⟨date, range, time⟩ := lost none "demain" .localeDefault now
  obtain ⟨date', range', time'⟩ := padded' "demain" .localeDefault now
  refine ⟨⟨by decide, padding⟩, ⟨?_, ?_⟩, none, date'.trans date, range'.trans range,
    time'.trans time⟩
  · rw [same]
    decide +kernel
  · rw [(answers "demain" .localeDefault now).1]
    decide +kernel

end Engine

end DatePhrase
