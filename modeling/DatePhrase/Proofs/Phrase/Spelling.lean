import DatePhrase.Phrase.Recognized
import DatePhrase.Proofs.Text.Folded

/-! The parts that phrases are cut into: blanks, gaps and words. Where no letter of a text is a case
variant of another letter of the words, a part that spells a word is that word, and a text in lower
case lends its parts as they stand. -/
namespace DatePhrase
open Text

/-- Any number of blanks. -/
def Text.AllBlank (s : List Char) : Prop := ∀ c ∈ s, isBlank c

instance (s : List Char) : Decidable (AllBlank s) := inferInstanceAs (Decidable (∀ c ∈ s, _))

/-- At least one blank and nothing else. -/
def Text.IsGap (s : List Char) : Prop := s ≠ [] ∧ AllBlank s

instance (s : List Char) : Decidable (IsGap s) := inferInstanceAs (Decidable (_ ∧ _))

namespace Vocabulary
open Cut

theorem mem_cutBlanks {g s rest : List Char} :
    (g, rest) ∈ cutBlanks s ↔ s = g ++ rest ∧ AllBlank g := mem_many

theorem mem_cutGap {g s rest : List Char} :
    (g, rest) ∈ cutGap s ↔ s = g ++ rest ∧ IsGap g := mem_atLeastOne

/-- No letter of the text is a case variant of another letter of the words. -/
def Apart (words : List String) (text : List Char) : Prop :=
  ∀ w ∈ words, ∀ a ∈ w.toList, ∀ c ∈ text, sameLetter a c → a = c

instance (words : List String) (text : List Char) : Decidable (Apart words text) :=
  decidable_of_iff
    (words.all fun w => w.toList.all fun a => text.all fun c => !sameLetter a c || a == c) (by
      simp only [Apart, List.all_eq_true, Bool.or_eq_true, Bool.not_eq_true', beq_iff_eq]
      simp only [← Bool.not_eq_true, Decidable.imp_iff_not_or])

/-- Letters that folding leaves as they are have no variants among each other. -/
theorem apart_of_folded {words : List String} {text : List Char}
    (listed : ∀ w ∈ words, AllFolded w.toList) (folded : AllFolded text) : Apart words text := by
  intro w hw a ha c hc same
  rw [sameLetter, (listed w hw a ha).2, (folded c hc).2] at same
  exact eq_of_beq same

/-- A part of the text that spells a listed word is that word. -/
theorem exists_of_spells {all words : List String} {text part : List Char}
    (apart : Apart all text) (listed : words ⊆ all) (within : part ⊆ text)
    (spelled : Spells words part) : ∃ w ∈ words, part = w.toList := by
  obtain ⟨w, hw, same⟩ := spelled
  exact ⟨w, hw, eq_of_fold_eq same fun a ha c hc => apart w (listed hw) a ha c (within hc)⟩

/-- A listed word spells itself. -/
theorem spells_of_mem {words : List String} {w : String} (h : w ∈ words) :
    Spells words w.toList := ⟨w, h, rfl⟩

/-- A part of a text in lower case is taken as it is. -/
theorem asListed_of_subset {text part : List Char} {w : String}
    (lowered : lowerChars text = text) (within : part ⊆ text) (same : part = w.toList) :
    asListed part = w := by
  have settled := settled_of_lowerFrom lowered
  rw [asListed, lowerChars, lowerFrom_of_settled fun c hc => settled c (within hc), same,
    String.ofList_toList]

theorem asListed_of_folded {w : String} (folded : AllFolded w.toList) : asListed w.toList = w := by
  rw [asListed, lowerChars_of_folded folded, String.ofList_toList]

end Vocabulary

end DatePhrase
