import DatePhrase.Proofs.Phrase.Shapes
import DatePhrase.Proofs.Phrase.Weekdays
import Mathlib.Data.List.Forall2

/-! Which weekdays a recognized phrase names. Every day name in a text spells a weekday word in some
case, but the day table is asked for the name in lower case: a letter that has another lower case
letter as its variant, such as the long s, can make a name that spells a word and is not listed.
Main statements: without such letters every weekday of a phrase is the one that the day table has
for a word that the name spells, and with one of them a phrase may name Sunday instead. -/
namespace DatePhrase
open Text Calendar

/-- The weekdays in a phrase, in their order. -/
def Recognized.days : Recognized → List Weekday
  | .weekdayRange first last => [first, last]
  | .weekdayAt _ day _ => [day]
  | .weekday _ day => [day]
  | _ => []

namespace Vocabulary
open Cut

/-- The day names that a text is read with as a shape, as they stand in the text. -/
def dayNames (v : Vocabulary) (text : String) : Shape → List (List Char)
  | .weekdayRange => (v.cutRange.all? text.toList).toList.flatMap fun (first, last) => [first, last]
  | .weekdayAt => (v.cutWeekdayAt.all? text.toList).toList.map fun ((_, day), _) => day
  | .weekday => (v.cutWeekday.all? text.toList).toList.map fun (_, day) => day
  | _ => []

variable {v : Vocabulary} {text : String}

/-- The weekdays of a phrase are looked up under its day names in lower case. -/
theorem days_of_recognize {phrase : Recognized} (h : v.recognize text = some phrase) :
    phrase.days = (v.dayNames text phrase.shape).map fun name => v.dayOf (asListed name) := by
  have read := recognizeAs_of_recognize h
  cases phrase <;> simp only [Recognized.shape, recognizeAs, Option.bind_eq_bind,
    Option.bind_eq_some_iff, Option.pure_def, Option.some.injEq, Recognized.weekdayRange.injEq,
    Recognized.weekdayAt.injEq, Recognized.weekday.injEq, Prod.exists] at read
  case immediate => rfl
  case combinedOffset => rfl
  case relativeOffset => rfl
  case weekdayRange =>
    obtain ⟨first, last, cut, rfl, rfl⟩ := read
    simp [Recognized.days, Recognized.shape, dayNames, cut]
  case weekdayAt =>
    obtain ⟨choice, day, rest, cut, week, -, rfl, rfl, rfl⟩ := read
    simp [Recognized.days, Recognized.shape, dayNames, cut]
  case weekday =>
    obtain ⟨choice, day, cut, week, -, rfl, rfl⟩ := read
    simp [Recognized.days, Recognized.shape, dayNames, cut]

/-- A day name is a part of the text that spells a weekday word in some case. -/
theorem spells_of_mem_dayNames {shape : Shape} {name : List Char}
    (h : name ∈ v.dayNames text shape) : name ⊆ text.toList ∧ Spells v.dayWords name := by
  cases shape <;> simp only [dayNames, List.not_mem_nil, List.mem_flatMap, List.mem_map,
    Option.mem_toList, Prod.exists, List.mem_cons, or_false] at h
  case weekdayRange =>
    obtain ⟨first, last, cut, which⟩ := h
    obtain ⟨before, opening, g₁, g₂, closing, g₃, after, parts, -, -, -, -, known₁, known₂⟩ :=
      mem_cutRange.1 (mem_of_all? cut)
    rcases which with rfl | rfl
    · exact ⟨fun c hc => by simp [parts, hc], known₁⟩
    · exact ⟨fun c hc => by simp [parts, hc], known₂⟩
  case weekdayAt =>
    obtain ⟨choice, day, rest, cut, rfl⟩ := h
    obtain ⟨before, g₁, intro, g₂, parts, -, ⟨-, known⟩, -⟩ := mem_cutWeekdayAt.1 (mem_of_all? cut)
    exact ⟨fun c hc => by simp [parts, hc], known⟩
  case weekday =>
    obtain ⟨choice, day, cut, rfl⟩ := h
    obtain ⟨before, after, parts, -, -, -, known⟩ := mem_cutWeekday.1 (mem_of_all? cut)
    exact ⟨fun c hc => by simp [parts, hc], known⟩

/-- The name spells a weekday word of the languages, for which the day table has the weekday. -/
def NamesDay (t : Table) (languages : List String) (name : List Char) (day : Weekday) : Prop :=
  ∃ w : String, (∃ d : Weekday, w ∈ t.words languages d.name) ∧
    name.map fold = w.toList.map fold ∧ (ofTable t languages).days.lookup w = some day

/-- Where no letter of a text is a variant of another letter of the weekday words, every weekday of
a recognized phrase is the one that the day table has for a word spelled by the day name. -/
theorem namesDay_of_recognize (t : Table) (languages : List String) (text : String)
    (lowered : lower text = text) (apart : Apart (ofTable t languages).dayWords text.toList)
    (phrase : Recognized) (claimed : (ofTable t languages).recognize text = some phrase) :
    List.Forall₂ (NamesDay t languages) ((ofTable t languages).dayNames text phrase.shape)
      phrase.days := by
  have settled : lowerChars text.toList = text.toList := by
    have same := congrArg String.toList lowered
    rwa [lower, String.toList_ofList] at same
  rw [days_of_recognize claimed, List.forall₂_map_right_iff, List.forall₂_same]
  intro name found
  obtain ⟨within, spelled⟩ := spells_of_mem_dayNames found
  obtain ⟨w, listed, same⟩ := exists_of_spells apart (fun _ h => h) within spelled
  obtain ⟨d, named⟩ := mem_dayWords.1 listed
  obtain ⟨day, entry⟩ := exists_day named
  refine ⟨w, ⟨d, named⟩, by rw [same], ?_⟩
  rw [asListed_of_subset settled within same, dayOf_of_lookup entry, entry]

/-- Saturday by its word. -/
theorem namesDay_of_recognize_saturday :
    let t := (Table.empty.insert "en" "next" "next").insert "en" "saturday" "saturday"
    let v := ofTable t ["en"]
    lower "next saturday" = "next saturday" ∧ Apart v.dayWords "next saturday".toList ∧
      v.recognize "next saturday" = some (.weekday .following .saturday) ∧
      List.Forall₂ (NamesDay t ["en"]) (v.dayNames "next saturday" .weekday) [.saturday] := by
  intro t v
  have lowered : lower "next saturday" = "next saturday" := by decide +kernel
  have apart : Apart v.dayWords "next saturday".toList := by decide +kernel
  have claimed : v.recognize "next saturday" = some (.weekday .following .saturday) := by
    decide +kernel
  exact ⟨lowered, apart, claimed,
    namesDay_of_recognize t ["en"] "next saturday" lowered apart _ claimed⟩

/-- A long s stands for an s in the pattern but not in the day table. -/
theorem not_namesDay_of_recognize :
    ¬ ∀ (t : Table) (languages : List String) (text : String) (phrase : Recognized),
      lower (trim text) = text → (ofTable t languages).recognize text = some phrase →
      List.Forall₂ (NamesDay t languages) ((ofTable t languages).dayNames text phrase.shape)
        phrase.days := by
  intro names
  let t := (Table.empty.insert "en" "next" "next").insert "en" "saturday" "saturday"
  have named := names t ["en"] "next ſaturday" (.weekday .following .sunday) (by decide +kernel)
    (by decide +kernel)
  obtain ⟨w, ⟨d, listed⟩, -, entry⟩ : NamesDay t ["en"] "ſaturday".toList .sunday := by
    have only : (ofTable t ["en"]).dayNames "next ſaturday" .weekday = ["ſaturday".toList] := by
      decide +kernel
    simp only [Recognized.shape, Recognized.days, only] at named
    exact List.forall₂_cons.1 named |>.1
  have word : w = "saturday" := by
    have all : ∀ d ∈ Weekday.all, ∀ w ∈ t.words ["en"] d.name, w = "saturday" := by decide +kernel
    exact all d d.mem_all w listed
  rw [word] at entry
  exact absurd entry (by decide +kernel)

end Vocabulary

end DatePhrase
