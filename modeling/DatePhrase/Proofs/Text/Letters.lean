import DatePhrase.Proofs.Text.Folded
import DatePhrase.Text.WordChar

/-! Letters and numbers under case folding. Every run of the case tables maps letters to letters, so
folding makes no letter or number and takes none away, and a word of letters and numbers is one in
any case. The runs keep clear of all digits, so a word without digits has none in any case. -/
namespace DatePhrase.Text

/-- Whether one of the ranges has all code points from `first` to `last`. -/
def Ranges.spans (ranges : Ranges) (first last : Nat) : Bool :=
  ranges.any fun r => r.1.ble first && last.ble r.2

theorem Ranges.has_of_spans {ranges : Ranges} {first last point : Nat}
    (spans : ranges.spans first last) (lower : first ≤ point) (upper : point ≤ last) :
    ranges.has point := by
  simp only [Ranges.spans, List.any_eq_true, Bool.and_eq_true, Nat.ble_eq] at spans
  obtain ⟨r, listed, from_first, to_last⟩ := spans
  exact Ranges.has_iff.2 ⟨r, listed, from_first.trans lower, upper.trans to_last⟩

/-- Whether the characters of a run and their images are letters. -/
def isLettered (run : Nat × Nat × Nat × Nat) : Bool :=
  let (first, last, step, image) := run
  alphabetic.spans image (image + (last - first)) &&
    (alphabetic.spans first last || (List.range (last - first + 1)).all fun k =>
      k % step != 0 || alphabetic.spans (first + k) (first + k))

theorem isLettered_of_mem : ∀ run ∈ lowerRuns ++ foldRuns, isLettered run := by
  have all : (lowerRuns ++ foldRuns).all isLettered := by decide +kernel
  exact List.all_eq_true.1 all

theorem toNat_ofNat_of_alphabetic {n : Nat} (letter : alphabetic.has n) :
    (Char.ofNat n).toNat = n := by
  have valid : ∀ r ∈ alphabetic, r.2 < 0xd800 ∨ 0xdfff < r.1 ∧ r.2 < 0x110000 := by
    decide +kernel
  obtain ⟨r, listed, lower, upper⟩ := Ranges.has_iff.1 letter
  have inside : n.isValidChar := by
    rcases valid r listed with low | high
    · exact .inl (by omega)
    · exact .inr (by omega)
  rw [Char.ofNat, dif_pos inside]
  rfl

/-- A run of the case tables maps letters to letters. -/
theorem isAlphabetic_of_image? {runs : CaseRuns} (tables : runs ⊆ lowerRuns ++ foldRuns)
    {c d : Char} (image : runs.image? c = some d) : isAlphabetic c ∧ isAlphabetic d := by
  simp only [CaseRuns.image?, Option.map_eq_some_iff, Prod.exists] at image
  obtain ⟨first, last, step, low, found, rfl⟩ := image
  have run := List.find?_some found
  simp only [Bool.and_eq_true, decide_eq_true_eq, beq_iff_eq] at run
  obtain ⟨⟨lower, upper⟩, even⟩ := run
  have lettered := isLettered_of_mem _ (tables (List.mem_of_find?_eq_some found))
  simp only [isLettered, Bool.and_eq_true, Bool.or_eq_true, List.all_eq_true, List.mem_range,
    bne_iff_ne, ne_eq] at lettered
  obtain ⟨images, sources⟩ := lettered
  constructor
  · rcases sources with whole | each
    · exact Ranges.has_of_spans whole lower upper
    · have own := (each (c.toNat - first) (by omega)).resolve_left (by simp [even])
      exact Ranges.has_of_spans own (by omega) (by omega)
  · have own : alphabetic.has (low + (c.toNat - first)) :=
      Ranges.has_of_spans images (by omega) (by omega)
    rwa [isAlphabetic, toNat_ofNat_of_alphabetic own]

theorem isAlphanumeric_of_image? {runs : CaseRuns} (tables : runs ⊆ lowerRuns ++ foldRuns)
    {c d : Char} (image : runs.image? c = some d) : isAlphanumeric d = isAlphanumeric c := by
  obtain ⟨source, target⟩ := isAlphabetic_of_image? tables image
  simp [isAlphanumeric, source, target]

theorem isAlphanumeric_simpleLower (c : Char) :
    isAlphanumeric (simpleLower c) = isAlphanumeric c := by
  unfold simpleLower
  split
  · rename_i small
    have each : ∀ n < 128, (Char.ofNat n).toLower = Char.ofNat n ∨
        isAlphabetic (Char.ofNat n) ∧ isAlphabetic (Char.ofNat n).toLower := by decide +kernel
    have own := each c.toNat small
    rw [Char.ofNat_toNat] at own
    rcases own with same | ⟨source, target⟩
    · rw [same]
    · simp [isAlphanumeric, source, target]
  · cases image : lowerRuns.image? c with
    | none => rfl
    | some d => exact isAlphanumeric_of_image? (List.subset_append_left _ _) image

@[simp] theorem isAlphanumeric_fold (c : Char) : isAlphanumeric (fold c) = isAlphanumeric c := by
  unfold fold
  split
  · rename_i small
    have own := isAlphanumeric_simpleLower c
    rwa [simpleLower, if_pos small] at own
  · split
    · rfl
    · cases image : foldRuns.image? c with
      | none => exact isAlphanumeric_simpleLower c
      | some d => exact isAlphanumeric_of_image? (List.subset_append_right _ _) image

/-- Whether none of the ranges has a code point from `first` to `last`. -/
def Ranges.misses (ranges : Ranges) (first last : Nat) : Bool :=
  ranges.all fun r => r.2.blt first || last.blt r.1

theorem Ranges.misses_iff {ranges : Ranges} {first last : Nat} :
    ranges.misses first last ↔ ∀ r ∈ ranges, r.2 < first ∨ last < r.1 := by
  simp [Ranges.misses, Nat.blt_eq]

/-- The case tables neither change digits nor make any. -/
theorem misses_digits : ∀ run ∈ lowerRuns ++ foldRuns, decimalDigits.misses run.1 run.2.1 ∧
    decimalDigits.misses run.2.2.2 (run.2.2.2 + (run.2.1 - run.1)) := by
  have all : (lowerRuns ++ foldRuns).all fun run => decimalDigits.misses run.1 run.2.1 &&
      decimalDigits.misses run.2.2.2 (run.2.2.2 + (run.2.1 - run.1)) := by decide +kernel
  simpa only [List.all_eq_true, Bool.and_eq_true] using all

theorem has_of_isDigit (c : Char) (digit : isDigit c) : decimalDigits.has c.toNat := by
  simp only [isDigit, Bool.and_eq_true] at digit
  exact digit.1

theorem image?_of_isDigit {runs : CaseRuns} (tables : runs ⊆ lowerRuns ++ foldRuns) {c : Char}
    (digit : isDigit c) : runs.image? c = none := by
  obtain ⟨r, listed, lower, upper⟩ := Ranges.has_iff.1 (has_of_isDigit c digit)
  simp only [CaseRuns.image?, Option.map_eq_none_iff, List.find?_eq_none, Prod.forall]
  intro first last step image run inside
  simp only [Bool.and_eq_true, decide_eq_true_eq] at inside
  have outside := Ranges.misses_iff.1 (misses_digits _ (tables run)).1 r listed
  simp only at outside
  omega

theorem fold_of_isDigit {c : Char} (digit : isDigit c) : fold c = c := by
  unfold fold
  split
  · rename_i small
    have each : ∀ n < 128, isDigit (Char.ofNat n) → (Char.ofNat n).toLower = Char.ofNat n := by
      decide +kernel
    have own := each c.toNat small
    rw [Char.ofNat_toNat] at own
    exact own digit
  · rename_i large
    rw [image?_of_isDigit (List.subset_append_right _ _) digit, Option.getD_none, simpleLower,
      if_neg large, image?_of_isDigit (List.subset_append_left _ _) digit, Option.getD_none,
      ite_self]

@[simp] theorem isDigit_fold (c : Char) : isDigit (fold c) = isDigit c := by
  rw [Bool.eq_iff_iff]
  constructor
  · exact of_fold has_of_isDigit (by decide +kernel)
      (fun run listed => Ranges.misses_iff.1 (misses_digits run listed).2) (by decide)
  · intro digit
    rwa [fold_of_isDigit digit]

/-- Only ASCII folds to a code point that no other letter has for its image. -/
theorem small_of_fold {n : Nat} (positive : 0 < n) (ascii : n < 128)
    (far : ∀ run ∈ lowerRuns ++ foldRuns,
      run.2.1 < 128 ∨ n < run.2.2.2 ∨ run.2.2.2 + (run.2.1 - run.1) < n)
    {c : Char} (folds : (fold c).toNat = n) : c.toNat < 128 := by
  by_contra large
  have image_ne : ∀ {runs : CaseRuns}, runs ⊆ lowerRuns ++ foldRuns →
      ∀ d, runs.image? c = some d → d.toNat ≠ n := by
    intro runs tables d image same
    simp only [CaseRuns.image?, Option.map_eq_some_iff, Prod.exists] at image
    obtain ⟨first, last, step, low, found, rfl⟩ := image
    have run := List.find?_some found
    simp only [Bool.and_eq_true, decide_eq_true_eq] at run
    have outside := far _ (tables (List.mem_of_find?_eq_some found))
    simp only at outside
    rcases toNat_ofNat_eq_or (low + (c.toNat - first)) with own | zero <;> omega
  have lower_ne : (simpleLower c).toNat ≠ n := by
    rw [simpleLower, if_neg large]
    cases image : lowerRuns.image? c with
    | none => rw [Option.getD_none]; omega
    | some d => exact image_ne (List.subset_append_left _ _) d image
  revert folds
  rw [imp_false, fold, if_neg large]
  split
  · omega
  · cases image : foldRuns.image? c with
    | none => exact lower_ne
    | some d => exact image_ne (List.subset_append_right _ _) d image

/-- In ASCII lower case is what folding gives. -/
theorem lowerAt_of_small {c : Char} (small : c.toNat < 128) (before after : List Char) :
    lowerAt before after c = [fold c] := by
  have greek : c ≠ 'Σ' := by
    rintro rfl
    exact absurd small (by decide)
  have dotted : c ≠ 'İ' := by
    rintro rfl
    exact absurd small (by decide)
  rw [lowerAt, if_neg greek, if_neg dotted, simpleLower, if_pos small, fold, if_pos small]

namespace Cut
variable {words : List String} {part : List Char}

/-- A word of a class that folding keeps is of that class in any case. -/
theorem forall_of_spells {p : Char → Bool} {kept : Bool} (folds : ∀ c, p (fold c) = p c)
    (all : ∀ w ∈ words, ∀ c ∈ w.toList, p c = kept) (spelled : Spells words part) :
    ∀ c ∈ part, p c = kept := by
  obtain ⟨w, listed, same⟩ := spelled
  intro c inside
  have variant : fold c ∈ w.toList.map fold := same ▸ List.mem_map_of_mem inside
  obtain ⟨a, ha, equal⟩ := List.mem_map.1 variant
  rw [← folds, ← equal, folds]
  exact all w listed a ha

theorem isAlphanumeric_of_spells (letters : ∀ w ∈ words, ∀ c ∈ w.toList, isAlphanumeric c)
    (spelled : Spells words part) : ∀ c ∈ part, isAlphanumeric c :=
  forall_of_spells isAlphanumeric_fold letters spelled

theorem undigited_of_spells (undigited : ∀ w ∈ words, ∀ c ∈ w.toList, isDigit c = false)
    (spelled : Spells words part) : ∀ c ∈ part, isDigit c = false :=
  forall_of_spells isDigit_fold undigited spelled

/-- No digit 0 to 9 is read as part of a word without digits. -/
theorem not_plainDigit_of_spells (undigited : ∀ w ∈ words, ∀ c ∈ w.toList, isDigit c = false)
    (spelled : Spells words part) : ∀ c ∈ part, ¬ IsPlainDigit c := by
  intro c inside plain
  have digit := isDigit_of_plain plain
  rw [undigited_of_spells undigited spelled c inside] at digit
  cases digit

end Cut

end DatePhrase.Text
