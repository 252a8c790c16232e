import DatePhrase.Proofs.Text.Cuts
import DatePhrase.Proofs.Text.Numerals

/-! Characters that neither lower case nor case folding changes, blanks, the digits 0 to 9 and the
marks between the numbers of a date among them. A text of such characters stays as it is in lower
case, and it spells a word of such characters only letter by letter. -/
namespace DatePhrase.Text

instance (c : Char) : Decidable (Settled c) := inferInstanceAs (Decidable (_ ∧ _))

/-- Neither lower case nor case folding changes the character. -/
def Folded (c : Char) : Prop := Settled c ∧ fold c = c

instance (c : Char) : Decidable (Folded c) := inferInstanceAs (Decidable (_ ∧ _))

/-- Neither lower case nor case folding changes any character of the text. -/
def AllFolded (s : List Char) : Prop := ∀ c ∈ s, Folded c

@[simp] theorem allFolded_append {s rest : List Char} :
    AllFolded (s ++ rest) ↔ AllFolded s ∧ AllFolded rest := by
  simp only [AllFolded, List.mem_append]
  constructor
  · exact fun all => ⟨fun c hc => all c (.inl hc), fun c hc => all c (.inr hc)⟩
  · rintro ⟨front, back⟩ c (hc | hc)
    · exact front c hc
    · exact back c hc

theorem folded_of_isBlank {c : Char} (blank : isBlank c) : Folded c := by
  have each : ∀ n ∈ blankCodes, Folded (Char.ofNat n) := by decide +kernel
  have own := each c.toNat (toNat_mem_blankCodes blank)
  rwa [Char.ofNat_toNat] at own

theorem folded_of_plainDigit {c : Char} (plain : IsPlainDigit c) : Folded c := by
  obtain ⟨lower, upper⟩ := isPlainDigit_iff.1 plain
  have each : ∀ n < 58, 48 ≤ n → Folded (Char.ofNat n) := by decide +kernel
  have own := each c.toNat (by omega) lower
  rwa [Char.ofNat_toNat] at own

theorem lowerChars_of_folded {s : List Char} (folded : AllFolded s) : lowerChars s = s :=
  lowerFrom_of_settled (fun c hc => (folded c hc).1) []

theorem map_fold_of_folded {s : List Char} (folded : AllFolded s) : s.map fold = s := by
  calc s.map fold
    _ = s.map id := List.map_congr_left fun c hc => (folded c hc).2
    _ = s := List.map_id s

/-- Without blanks at its ends a text of such characters is normal. -/
theorem lower_trim_of_folded {text : String} (folded : AllFolded text.toList)
    (stops : Stops isBlank text.toList) (tight : Tight text.toList) :
    lower (trim text) = text := by
  rw [trim, trimBlanks_eq_self stops tight, lower, String.toList_ofList,
    lowerChars_of_folded folded, String.ofList_toList]

/-- Case folding takes no character into a class that was outside it, when no image of its tables
lies in the class. -/
theorem of_fold {p : Char → Bool} {codes : Ranges} (listed : ∀ c, p c → codes.has c.toNat)
    (ascii : ∀ n < 128, p (Char.ofNat n).toLower → p (Char.ofNat n))
    (apart : ∀ run ∈ lowerRuns ++ foldRuns, ∀ r ∈ codes,
      r.2 < run.2.2.2 ∨ run.2.2.2 + (run.2.1 - run.1) < r.1)
    (positive : ∀ r ∈ codes, 0 < r.1) {c : Char} (h : p (fold c)) : p c := by
  unfold fold at h
  split at h
  · rename_i small
    have own := ascii c.toNat small
    rw [Char.ofNat_toNat] at own
    exact own h
  · split at h
    · exact h
    · cases image : foldRuns.image? c with
      | none =>
        rw [image, Option.getD_none] at h
        exact of_simpleLower listed ascii
          (fun run hrun => apart run (List.mem_append_left _ hrun)) positive h
      | some d =>
        simp only [image, Option.getD_some] at h
        have within := listed d h
        rw [CaseRuns.has_image? (fun run hrun => apart run (List.mem_append_right _ hrun)) positive
          image] at within
        cases within

/-- A character that written dates are made of: a digit 0 to 9, a dash, a point or a slash. -/
def isDateChar (c : Char) : Bool := 45 ≤ c.toNat && c.toNat ≤ 57

theorem isDateChar_of_plainDigit {c : Char} (plain : IsPlainDigit c) : isDateChar c := by
  obtain ⟨lower, upper⟩ := isPlainDigit_iff.1 plain
  simp only [isDateChar, Bool.and_eq_true, decide_eq_true_eq]
  omega

theorem folded_of_isDateChar {c : Char} (h : isDateChar c) : Folded c := by
  simp only [isDateChar, Bool.and_eq_true, decide_eq_true_eq] at h
  have each : ∀ n < 58, 45 ≤ n → Folded (Char.ofNat n) := by decide +kernel
  have own := each c.toNat (by omega) h.1
  rwa [Char.ofNat_toNat] at own

/-- Such a character has no variant but itself. -/
theorem eq_of_sameLetter_dateChar {a c : Char} (h : isDateChar c) (same : sameLetter a c) :
    a = c := by
  have folds : fold a = c := by
    rw [sameLetter, (folded_of_isDateChar h).2] at same
    exact eq_of_beq same
  have listed : ∀ c, isDateChar c → Ranges.has [(45, 57)] c.toNat := by
    intro c h
    simpa [isDateChar, Ranges.has] using h
  have own : isDateChar a := of_fold listed (by decide) (by decide +kernel) (by decide)
    (by rwa [folds])
  rwa [(folded_of_isDateChar own).2] at folds

namespace Cut

/-- Folding a part that spells a word gives the word. -/
theorem map_fold_of_spells {words : List String} {part : List Char}
    (listed : ∀ w ∈ words, AllFolded w.toList) (spelled : Spells words part) :
    ∃ w ∈ words, part.map fold = w.toList := by
  obtain ⟨w, hw, same⟩ := spelled
  exact ⟨w, hw, same.trans (map_fold_of_folded (listed w hw))⟩

/-- Spelling a word in other letters takes letters that folding changes. -/
theorem exists_of_spells_folded {words : List String} {part : List Char}
    (listed : ∀ w ∈ words, AllFolded w.toList) (folded : AllFolded part)
    (spelled : Spells words part) : ∃ w ∈ words, part = w.toList := by
  obtain ⟨w, hw, same⟩ := map_fold_of_spells listed spelled
  exact ⟨w, hw, (map_fold_of_folded folded).symm.trans same⟩

/-- A text that a listed word can be cut off begins with one of the words. -/
theorem exists_opening {α : Type} {words : List String} {f : List Char → Cut α} {a : α}
    {text rest : List Char} (listed : ∀ w ∈ words, AllFolded w.toList) (folded : AllFolded text)
    (way : (a, rest) ∈ (oneOf words >>= f) text) : ∃ w ∈ words, w.toList <+: text := by
  obtain ⟨part, mid, first, -⟩ := mem_bind.1 way
  obtain ⟨parts, spelled⟩ := mem_oneOf_iff.1 first
  obtain ⟨w, known, rfl⟩ := exists_of_spells_folded listed
    (fun c hc => folded c (by simp [parts, hc])) spelled
  exact ⟨w, known, mid, parts.symm⟩

end Cut

end DatePhrase.Text
