import DatePhrase.Proofs.Engine.Outcomes
import DatePhrase.Proofs.Grammar.DayWordsAndOffsets
import DatePhrase.Proofs.Phrase.OneShape

/-! Two ways to read a day word or an offset: as a phrase of a fixed shape, and by the casual
grammar of its language. Main statement: for the languages at hand both name the same instant, and
both say alike whether a time of day is stated. -/
namespace DatePhrase
open Text Calendar

/-- The text is a day word or an offset of the language and names an instant of the calendar. -/
inductive Names (t : Table) (language : String) (now : Instant) : String → Instant → Prop
  | dayWord {w : String} {i : Immediate} {target : Instant}
      (listed : w ∈ t.words [language] i.name) (day : now.add? i.days .day = some target) :
      Names t language now w target
  | offset (p : OffsetParts t language) {target : Instant}
      (later : now.add? p.count p.unit = some target) :
      Names t language now (String.ofList p.text) target

namespace Vocabulary
open Cut

variable {language w : String}

theorem offsetsUndigited_builtin (languages : List String) :
    Table.builtin.OffsetsUndigited languages :=
  fun key _ language _ => undigited_builtin key language

theorem folded_of_mem_offsetWords
    (h : w ∈ (ofTable Table.builtin [language]).offsetWords) : AllFolded w.toList := by
  obtain ⟨key, -, listed⟩ := exists_offsetKey h
  exact folded_of_mem_words listed

/-- The recognizers and the casual grammar read day words off the same table. -/
theorem immediate_ofTable (t : Table) (language : String) :
    (ofTable t [language]).immediate = (Casual.ofTable t language).immediate := rfl

theorem recognize_dayWord (known : language ∈ builtinCodes) {i : Immediate}
    (listed : w ∈ Table.builtin.words [language] i.name) :
    (ofTable Table.builtin [language]).recognize w = some (.immediate i) := by
  have read : (ofTable Table.builtin [language]).recognizeAs w .immediate =
      some (.immediate i) := by
    rw [recognizeAs, immediate_ofTable, Casual.lookup_immediate known listed, Option.map_some]
  rw [recognize, Shape.all, List.findSome?_cons, read]

theorem lookup_unit_builtin (known : language ∈ builtinCodes) {unit : TimeUnit}
    (named : w ∈ Table.builtin.words [language] unit.name) :
    (ofTable Table.builtin [language]).units.lookup w = some unit := by
  refine lookup_of_unique (mem_units_ofTable.2 named) fun u h => ?_
  obtain ⟨one, -, -⟩ :=
    unit_spellings language known unit unit.mem_all w.toList (mem_words_builtin.1 named)
  exact one u u.mem_all (mem_words_builtin.1 (mem_units_ofTable.1 h))

end Vocabulary

namespace OffsetParts
open Cut Vocabulary

variable {language : String} (p : OffsetParts Table.builtin language)

theorem isRelativeOffset : IsRelativeOffset Table.builtin [language] (String.ofList p.text) p.digits
    p.word := by
  refine ⟨[], p.gap, p.blanks, [], p.within, ?_, ⟨nofun, p.gap_blank, p.blank, nofun⟩, p.opening,
    p.unit, p.named⟩
  simp only [String.toList_ofList, text, List.nil_append, List.append_assoc, List.append_nil]

theorem tight_text : Tight p.text := by
  have nonempty : p.word.toList ≠ [] := by simpa using Table.ne_empty_of_mem_words p.named
  rw [text, tight_append (by simp [nonempty]), tight_append (by simp [nonempty]),
    tight_append (by simp [nonempty]), tight_append nonempty]
  exact Table.tight_of_mem_words p.named

theorem settled : lowerChars (String.ofList p.text).toList = (String.ofList p.text).toList := by
  rw [String.toList_ofList]
  exact lowerChars_of_folded p.folded

theorem apart : Apart (ofTable Table.builtin [language]).offsetWords
    (String.ofList p.text).toList := by
  rw [String.toList_ofList]
  exact apart_of_folded (fun _ => folded_of_mem_offsetWords) p.folded

theorem recognize_eq (known : language ∈ builtinCodes) :
    (ofTable Table.builtin [language]).recognize (String.ofList p.text) =
      some (.relativeOffset ⟨p.count, p.unit⟩) := by
  have inRange : p.count ≤ 2 ^ 63 - 1 := by
    have places := valueOf_lt p.writes.2.1
    rw [p.writes.2.2] at places
    have most := Nat.pow_le_pow_right (n := 10) (by decide) p.short
    omega
  exact recognize_of_recognizeAs (by simpa using known) <|
    recognizeAs_of_isRelativeOffset (offsetsUndigited_builtin [language]) p.settled p.apart
      p.isRelativeOffset p.writes inRange (lookup_unit_builtin known p.named)

end OffsetParts

namespace Engine
open Vocabulary

variable {language text : String} {now target : Instant} {weekStart : Weekday}

/-- Of languages at hand an engine keeps all. -/
theorem supported_builtin {languages : List String} (some : languages ≠ [])
    (known : ∀ l ∈ languages, l ∈ builtinCodes) :
    supported Table.builtin languages = languages.eraseDups := by
  have kept : languages.filter Table.builtin.hasLanguage = languages :=
    List.filter_eq_self.2 fun l member => hasLanguage_builtin (known l member)
  rw [supported, requested, if_neg (by simpa using some), kept]

theorem outcome_point_immediate (e : Engine) (i : Immediate) :
    (e.point weekStart now (.immediate i)).outcome = .ok (now.add? i.days .day) := by
  cases i with
  | now | today => simp [point, Immediate.days, Instant.add?_day, Instant.shift?]
  | tomorrow | yesterday => rfl

theorem outcome_point_relativeOffset (e : Engine) (offset : Offset) :
    (e.point weekStart now (.relativeOffset offset)).outcome = .ok (now.addOffset? offset) := rfl

theorem normalize_of_names (named : Names Table.builtin language now text target) :
    normalize text = text := by
  cases named with
  | dayWord listed day =>
    exact lower_trim_of_folded (folded_of_mem_words listed)
      (Table.stops_of_mem_words listed) (Table.tight_of_mem_words listed)
  | offset p later =>
    refine lower_trim_of_folded ?_ ?_ ?_ <;> rw [String.toList_ofList]
    · exact p.folded
    · exact (stops_append p.within_ne_nil).2 (Table.stops_of_mem_words p.opening)
    · exact p.tight_text

/-- The casual grammar of a language reads a day word or an offset as one match, all of the text.
It names the instant that the engine for the language answers, and states an hour just when the
engine finds a time of day in the text. -/
theorem casual_agrees (reader : PhraseReader) (language text : String) (weekStart : Weekday)
    (preference : WeekStart) (now target : Instant) (known : language ∈ builtinCodes)
    (named : Names Table.builtin language now text target) :
    let e := ofTable reader Table.builtin [language]
    ∃ m, (Casual.ofTable Table.builtin language).grammar.read text (.plain now weekStart) =
        .ok [m] ∧
      (m.index = 0 ∧ m.text = text ∧ m.start = target) ∧
      (e.date text preference now).outcome = .ok m.start ∧
      (e.hasTime text now).outcome = .ok m.certain.hour := by
  intro e
  have normal := normalize_of_names named
  have vocabulary : e.vocabulary = .ofTable Table.builtin [language] := by
    simp only [e, ofTable, ofPool]
    rw [supported_builtin (by simp) (by simpa using known)]
    rfl
  cases named with
  | @dayWord _ i _ listed day =>
    refine ⟨⟨0, text, target, Casual.certainOfImmediate i⟩,
      Casual.read_eq_ok (Casual.matches?_dayWord known listed day), ⟨rfl, rfl, rfl⟩,
      answers_of_phrase normal (by rw [vocabulary]; exact recognize_dayWord known listed) ?_ ?_⟩
    · rw [outcome_point_immediate, day]
    · cases i <;> rfl
  | offset p later =>
    have found : (Casual.ofTable Table.builtin language).matches? (String.ofList p.text).toList
        (.plain now weekStart) =
          .ok [⟨0, String.ofList p.text, target, Casual.certainOfUnit p.unit⟩] := by
      rw [String.toList_ofList]
      exact p.matches?_eq_ok known later
    refine ⟨⟨0, String.ofList p.text, target, Casual.certainOfUnit p.unit⟩,
      Casual.read_eq_ok found, ⟨rfl, rfl, rfl⟩,
      answers_of_phrase normal (by rw [vocabulary]; exact p.recognize_eq known) ?_ ?_⟩
    · rw [outcome_point_relativeOffset, Instant.addOffset?, later]
    · cases p.unit <;> rfl

/-- In ninety minutes a clock is an hour and a half on. -/
theorem casual_agrees_minutes :
    let now : Instant := ⟨⟨20742, by decide, by decide⟩, ⟨10 * nanosPerHour, by decide, false⟩⟩
    let target : Instant := ⟨⟨20742, by decide, by decide⟩, ⟨690 * nanosPerMinute, by decide, false⟩⟩
    let e := ofTable .silent Table.builtin ["en"]
    "en" ∈ builtinCodes ∧ Names Table.builtin "en" now "in 90min" target ∧
      ∃ m, (Casual.ofTable Table.builtin "en").grammar.read "in 90min" (.plain now .sunday) =
          .ok [m] ∧
        (m.index = 0 ∧ m.text = "in 90min" ∧ m.start = target) ∧
        (e.date "in 90min" .localeDefault now).outcome = .ok m.start ∧
        (e.hasTime "in 90min" now).outcome = .ok m.certain.hour := by
  intro now target e
  have known : "en" ∈ builtinCodes := by decide
  let p : OffsetParts Table.builtin "en" :=
    { within := "in", gap := [' '], digits := ['9', '0'], blanks := [], word := "min"
      count := 90, unit := .minute
      opening := mem_words_builtin.2 (by decide +kernel)
      gap_blank := by decide
      writes := ⟨by decide, by decide, by decide⟩
      short := by decide
      blank := nofun
      named := mem_words_builtin.2 (by decide +kernel) }
  have written : String.ofList p.text = "in 90min" := by decide +kernel
  have later : now.add? p.count p.unit = some target := by decide +kernel
  have named : Names Table.builtin "en" now "in 90min" target := written ▸ .offset p later
  exact ⟨known, named, casual_agrees .silent "en" "in 90min" .sunday .localeDefault now target known
    named⟩

end Engine

end DatePhrase
