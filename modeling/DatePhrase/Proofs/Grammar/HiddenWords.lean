import DatePhrase.Proofs.Grammar.WholeSpan
import DatePhrase.Proofs.Text.Folded
import DatePhrase.Proofs.Text.Occurrences

/-! Words that a text has only inside other words. Wherever such a word stands, a letter or number
touches it, so the casual grammar does not take it for a day word or a weekday, whatever time might
follow. Main statement: an offset hides all words that its in word and its unit word hide. -/
namespace DatePhrase
open Text

namespace Casual
open Cut

variable {g : Casual} {words : List String}

/-- Every way of the cut begins with a digit. -/
def DigitFirst {α : Type} (c : Cut α) : Prop :=
  ∀ s a rest, (a, rest) ∈ c s → ∃ d more, s = d :: more ∧ isDigit d

theorem DigitFirst.bind {α β : Type} {c : Cut α} {f : α → Cut β} (first : DigitFirst c) :
    DigitFirst (c >>= f) := by
  intro s b rest h
  obtain ⟨a, mid, read, -⟩ := mem_bind.1 h
  exact first s a mid read

theorem DigitFirst.or {α : Type} {c d : Cut α} (hc : DigitFirst c) (hd : DigitFirst d) :
    DigitFirst (c.or d) := by
  intro s a rest h
  rcases mem_or.1 h with first | second
  · exact hc s a rest first
  · exact hd s a rest second

theorem digitFirst_oneTo (n : Nat) : DigitFirst (oneTo n isDigit) := by
  intro s t rest h
  obtain ⟨rfl, nonempty, -, all⟩ := mem_oneTo.1 h
  obtain ⟨d, t, rfl⟩ := List.exists_cons_of_ne_nil nonempty
  exact ⟨d, t ++ rest, rfl, all d (by simp)⟩

theorem digitFirst_cutClock (g : Casual) : DigitFirst g.cutClock :=
  .or (.or (.bind (digitFirst_oneTo 2)) (.bind (digitFirst_oneTo 2))) (.bind (digitFirst_oneTo 2))

/-- Where no digit follows no time does. -/
theorem of_mem_cutTrailing {time : Option (List Char)} {s rest : List Char}
    (undigited : ∀ c ∈ s, isDigit c = false) (h : (time, rest) ∈ g.cutTrailing s) :
    time = none ∧ rest = s := by
  rw [cutTrailing_eq] at h
  rcases mem_optional.1 h with ⟨t, -, h⟩ | skipped
  · obtain ⟨intro, front, first, h⟩ := mem_bind.1 h
    obtain ⟨blanks, mid, second, h⟩ := mem_bind.1 h
    obtain ⟨taken, back, third, -⟩ := mem_bind.1 h
    obtain ⟨d, more, rfl, digit⟩ :=
      g.digitFirst_cutClock _ _ _ ((mem_taken g.forward_cutClock).1 third).1
    have back_front : d :: more <:+ front := forward_many _ _ _ _ second
    have front_s : front <:+ s :=
      Forward.optional (.bind (forward_many _) fun _ => forward_oneOf _) _ _ _ first
    have inside : d ∈ s := (back_front.trans front_s).subset (by simp)
    rw [undigited d inside] at digit
    cases digit
  · exact skipped

/-- A letter or number touches what stands between, where that counts, and if only one behind it
does, no digit follows. -/
def Touched (bounded : Bool) (before after : List Char) : Prop :=
  bounded ∧ (before.getLast?.any isAlphanumeric ∨
    after.head?.any isAlphanumeric ∧ ∀ c ∈ after, isDigit c = false)

instance (bounded : Bool) (before after : List Char) : Decidable (Touched bounded before after) :=
  inferInstanceAs (Decidable (_ ∧ _))

/-- Wherever one of the words stands in the text, it is touched. -/
def Hides (bounded : Bool) (words : List (List Char)) (text : List Char) : Prop :=
  ∀ w ∈ words, ∀ before after, text = before ++ (w ++ after) → Touched bounded before after

/-- Wherever one of the words stands in the text, a letter or number touches it at its start. -/
def HidesBehind (words : List (List Char)) (text : List Char) : Prop :=
  ∀ w ∈ words, ∀ before after, text = before ++ (w ++ after) →
    before.getLast?.any isAlphanumeric

/-- The places of a word in a text are found by their numbers. -/
theorem forall_place_iff {w text : List Char} {P : List Char → List Char → Prop} :
    (∀ before after, text = before ++ (w ++ after) → P before after) ↔
      ∀ k ≤ text.length, w <+: text.drop k → P (text.take k) (text.drop (k + w.length)) := by
  constructor
  · rintro all k - ⟨after, parts⟩
    refine all _ _ ?_
    rw [← List.drop_drop, ← parts, List.drop_left, parts, List.take_append_drop]
  · rintro all before after rfl
    have own := all before.length (by simp) (by simp)
    rwa [List.take_left, ← List.drop_drop, List.drop_left, List.drop_left] at own

instance (bounded : Bool) (words : List (List Char)) (text : List Char) :
    Decidable (Hides bounded words text) :=
  decidable_of_iff (∀ w ∈ words, ∀ k ≤ text.length, w <+: text.drop k →
    Touched bounded (text.take k) (text.drop (k + w.length)))
    (forall₂_congr fun _ _ => (forall_place_iff (P := Touched bounded)).symm)

instance (words : List (List Char)) (text : List Char) : Decidable (HidesBehind words text) :=
  decidable_of_iff (∀ w ∈ words, ∀ k ≤ text.length, w <+: text.drop k →
    (text.take k).getLast?.any isAlphanumeric)
    (forall₂_congr fun _ _ =>
      (forall_place_iff (P := fun before _ => before.getLast?.any isAlphanumeric)).symm)

theorem Hides.mono {bounded bounded' : Bool} {words words' : List (List Char)} {text : List Char}
    (hides : Hides bounded words text) (more : bounded → bounded') (fewer : words' ⊆ words) :
    Hides bounded' words' text := by
  intro w known before after place
  obtain ⟨counts, touched⟩ := hides w (fewer known) before after place
  exact ⟨more counts, touched⟩

/-- A single word hides all words but itself. -/
theorem hides_of_alphanumeric {words : List (List Char)} {text : List Char}
    (letters : ∀ c ∈ text, isAlphanumeric c) (undigited : ∀ c ∈ text, isDigit c = false)
    (other : text ∉ words) : Hides true words text := by
  rintro w known before after rfl
  refine ⟨rfl, ?_⟩
  rcases List.eq_nil_or_concat before with rfl | ⟨before, c, rfl⟩
  · cases after with
    | nil => exact absurd (by simpa using known) other
    | cons c after =>
      exact .inr ⟨letters c (by simp), fun d hd => undigited d (by simp [List.mem_cons.1 hd])⟩
  · exact .inl (by simpa using letters c (by simp))

/-- A word and the time behind it, if one stands there. -/
def timedRule (g : Casual) (words : List String)
    (meaning : List Char → Option (List Char) → Meaning) : Rule := do
  let word ← .oneOf words
  let time ← g.cutTrailing
  return meaning word time

theorem dayWordRule_eq (g : Casual) :
    g.dayWordRule = g.timedRule g.immediateWords g.dayWordMeaning := rfl

theorem weekdayRule_eq (g : Casual) :
    g.weekdayRule = g.timedRule g.dayWords g.weekdayMeaning := rfl

/-- In a text that hides the words no rule for them has a delimited span. -/
theorem isDelimited_of_hides {text : List Char}
    {meaning : List Char → Option (List Char) → Meaning}
    (forward : (g.timedRule words meaning).Forward) (listed : ∀ w ∈ words, AllFolded w.toList)
    (folded : AllFolded text) (hides : Hides g.bounded (words.map String.toList) text) :
    ∀ s ∈ (g.timedRule words meaning).scan text, g.isDelimited text s = false := by
  intro s scanned
  obtain ⟨before, after, parts, place, -, read⟩ := exists_of_mem_scan forward scanned
  obtain ⟨part, mid, first, later⟩ := mem_bind.1 read
  obtain ⟨time, back, second, last⟩ := mem_bind.1 later
  obtain ⟨-, rfl⟩ := mem_pure.1 last
  obtain ⟨cut, spelled⟩ := mem_oneOf_iff.1 first
  have inside : AllFolded part := fun c hc => folded c (by simp [parts, cut, hc])
  obtain ⟨w, known, rfl⟩ := exists_of_spells_folded listed inside spelled
  rw [cut] at parts
  obtain ⟨bounded, touched⟩ := hides _ (List.mem_map_of_mem known) before mid parts
  have front : text.take s.start = before := by rw [← place, parts, List.take_left]
  simp only [isDelimited, bounded, Bool.not_true, Bool.false_or, Bool.not_eq_eq_eq_not,
    Bool.not_false, Bool.or_eq_true, front]
  rcases touched with left | ⟨right, undigited⟩
  · exact .inl left
  · obtain ⟨-, rfl⟩ := of_mem_cutTrailing undigited second
    have width := congrArg List.length cut
    simp only [List.length_append] at width
    have back : text.drop s.stop = after := by
      rw [Span.stop, ← place, ← List.drop_drop, parts, List.drop_left]
      exact List.drop_left' (by omega)
    exact .inr (back ▸ right)

/-- An offset hides what its in word hides behind letters and its unit word hides. -/
theorem hides_offset {words : List (List Char)} {within gap digits blanks unit : List Char}
    (solid : ∀ w ∈ words, w ≠ [] ∧ Stops isBlank w ∧ Tight w ∧ ∀ c ∈ w, isDigit c = false)
    (gap_blank : ∀ c ∈ gap, isBlank c) (nonempty : digits ≠ []) (numeral : ∀ c ∈ digits, isDigit c)
    (blank : ∀ c ∈ blanks, isBlank c) (front : HidesBehind words within)
    (back : Hides true words unit) :
    Hides true words (within ++ (gap ++ (digits ++ (blanks ++ unit)))) := by
  intro w known before after same
  obtain ⟨word, stops, tight, clear⟩ := solid w known
  refine ⟨rfl, ?_⟩
  rw [← List.append_assoc within] at same
  rcases occurs_beside_run nonempty numeral word clear same with ⟨y, found⟩ | ⟨x, found, place⟩
  · obtain ⟨y, found⟩ := occurs_before_blanks gap_blank word tight found
    exact .inl (front w known before y found)
  · obtain ⟨z, ending, rfl⟩ := occurs_behind_run blank word stops found
    rcases (back w known z after ending).2 with left | right
    · refine .inl ?_
      have last : z.getLast? ≠ none := by
        intro none
        rw [none] at left
        cases left
      obtain ⟨c, ends⟩ := Option.ne_none_iff_exists'.1 last
      simp only [place, List.getLast?_append, ends, Option.some_or]
      rwa [ends] at left
    · exact .inr right

end Casual

end DatePhrase
