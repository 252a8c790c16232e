import DatePhrase.Phrase.Recognized
import DatePhrase.Proofs.Vocabulary.SearchPatterns
import Mathlib.Data.List.Basic

/-! The search patterns of a vocabulary. Main statement: each of them takes from a text what the
recognizers take for a word of its kind, way by way and in the same order; where it is missing, they
take nothing. -/
namespace DatePhrase
open Text

namespace Text.Cut
variable {c d : Cut (List Char)}

/-- The values are the fronts of the text that are taken. -/
def TakesFronts (c : Cut (List Char)) : Prop := ∀ s t rest, (t, rest) ∈ c s → s = t ++ rest

theorem takesFronts_many (p : Char → Bool) : (many p).TakesFronts := fun _ _ _ way =>
  (mem_many.1 way).1

theorem takesFronts_atLeastOne (p : Char → Bool) : (atLeastOne p).TakesFronts := fun _ _ _ way =>
  (mem_atLeastOne.1 way).1

theorem takesFronts_oneOf (words : List String) : (oneOf words).TakesFronts := fun _ _ _ way =>
  (mem_oneOf_iff.1 way).1

/-- The text that is taken by two cuts in turn is what they take, side by side. -/
theorem fst_taken_bind (first : c.TakesFronts) (later : d.TakesFronts) :
    (·.1) <$> (do let _ ← c; d : Cut (List Char)).taken = do
      let front ← c
      let more ← d
      return front ++ more := by
  funext s
  have ends : ∀ way ∈ c s, ∀ more ∈ d way.2,
      (s.take (s.length - more.2.length), more.2) = (way.1 ++ more.1, more.2) := by
    rintro ⟨front, mid⟩ taken ⟨t, rest⟩ behind
    obtain rfl := first _ _ _ taken
    obtain rfl := later _ _ _ behind
    have width : (front ++ (t ++ rest)).length - rest.length = (front ++ t).length := by
      simp only [List.length_append]
      omega
    rw [width, ← List.append_assoc, List.take_left]
  rw [map_eq, taken, List.map_map]
  simp only [Bind.bind, List.map_flatMap, pure, ← List.map_eq_flatMap]
  exact List.flatMap_congr fun way taken => List.map_congr_left fun more behind =>
    ends way taken more behind

end Text.Cut

namespace Vocabulary
open SearchPattern

/-- The pattern takes what the cut takes; if there is none, the cut takes nothing. -/
def Searches (c : Cut (List Char)) : Option String → Prop
  | none => ∀ s, c s = []
  | some pattern => ∃ p, SearchPattern.read? pattern = some p ∧ p.cut sameLetter = c

/-- Each pattern takes what the recognizers take for a word of its kind. -/
structure Patterns.Fits (patterns : Patterns) (v : Vocabulary) : Prop where
  within : Searches (.oneOf v.within) patterns.within
  choice : Searches v.cutChoice patterns.choice
  following : Searches (.oneOf v.following) patterns.following
  day : Searches (.oneOf v.dayWords) patterns.day
  unit : Searches (.oneOf v.unitWords) patterns.unit
  joining : Searches (.oneOf v.joining) patterns.joining
  clockIntro : Searches (.oneOf v.clockIntro) patterns.clockIntro
  opening : Searches (.oneOf v.opening) patterns.opening
  closing : Searches (.oneOf v.closing) patterns.closing

theorem searches_pattern? (words : List String) : Searches (.oneOf words) (pattern? words) := by
  cases made : pattern? words with
  | none =>
    obtain rfl := pattern?_eq_none_iff.1 made
    exact fun _ => rfl
  | some pattern =>
    obtain ⟨p, read, cut⟩ := SearchPattern.read?_pattern? made
    exact ⟨p, read, by rw [cut, anyOf_sameLetter]⟩

theorem searches_gapPattern? (v : Vocabulary) :
    Searches v.cutChoice (gapPattern? v.spacedChoices v.touchingChoices) := by
  have choice : v.cutChoice =
      (wordThen sameLetter v.spacedChoices gap).or
        (wordThen sameLetter v.touchingChoices blanks) := by
    simp only [cutChoice, Cut.taken_or, Cut.map_or, wordThen, anyOf_sameLetter]
    have spaced := Cut.fst_taken_bind (Cut.takesFronts_oneOf v.spacedChoices)
      (Cut.takesFronts_atLeastOne isBlank)
    have touching := Cut.fst_taken_bind (Cut.takesFronts_oneOf v.touchingChoices)
      (Cut.takesFronts_many isBlank)
    exact congrArg₂ Cut.or spaced touching
  cases made : gapPattern? v.spacedChoices v.touchingChoices with
  | none =>
    obtain ⟨spaced, touching⟩ := gapPattern?_eq_none_iff.1 made
    intro s
    rw [choice, spaced, touching]
    rfl
  | some pattern =>
    obtain ⟨p, read, cut⟩ := read?_gapPattern? made
    exact ⟨p, read, by rw [cut, choice]⟩

/-- The patterns of a vocabulary take the words that phrases are recognized by. -/
theorem patterns_fits (v : Vocabulary) : v.patterns.Fits v where
  within := searches_pattern? v.within
  choice := searches_gapPattern? v
  following := searches_pattern? v.following
  day := searches_pattern? v.dayWords
  unit := searches_pattern? v.unitWords
  joining := searches_pattern? v.joining
  clockIntro := searches_pattern? v.clockIntro
  opening := searches_pattern? v.opening
  closing := searches_pattern? v.closing

end Vocabulary

end DatePhrase
