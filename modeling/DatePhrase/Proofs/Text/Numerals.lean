import DatePhrase.Proofs.Text.Runs
import DatePhrase.Text.Numeral
import DatePhrase.Text.Numeric
import Mathlib.Data.List.Induction
import Mathlib.Data.Nat.Digits.Defs

/-! Decimal numerals by place value. Main statements: a run of characters is read as a number just
when it is a nonempty run of the digits 0 to 9 that writes it, writing a number to a width gives
such a run, and the first numeral of a text is found in one way only. The numerals of a text are its
runs of digits of any script. Blanks are no digits, and lower case makes none. -/
namespace DatePhrase.Text

/-- One of the digits 0 to 9. -/
def IsPlainDigit (c : Char) : Prop := '0' ≤ c ∧ c ≤ '9'

instance (c : Char) : Decidable (IsPlainDigit c) := inferInstanceAs (Decidable (_ ∧ _))

/-- The value of a run of the digits 0 to 9, the highest place first. -/
def valueOf (digits : List Char) : Nat :=
  Nat.ofDigits 10 (digits.reverse.map fun c => c.toNat - '0'.toNat)

/-- A nonempty run of the digits 0 to 9 writes the number. -/
def Writes (digits : List Char) (n : Nat) : Prop :=
  digits ≠ [] ∧ (∀ c ∈ digits, IsPlainDigit c) ∧ valueOf digits = n

theorem digitValue?_eq_some_iff {c : Char} {n : Nat} :
    digitValue? c = some n ↔ IsPlainDigit c ∧ c.toNat - '0'.toNat = n := by
  unfold digitValue? IsPlainDigit
  split <;> simp_all

theorem valueOf_append (digits : List Char) (c : Char) :
    valueOf (digits ++ [c]) = 10 * valueOf digits + (c.toNat - '0'.toNat) := by
  simp only [valueOf, List.reverse_append, List.reverse_singleton, List.singleton_append,
    List.map_cons, Nat.ofDigits_cons]
  omega

/-- A run of digits writes a number with no more places. -/
theorem valueOf_lt {digits : List Char} (plain : ∀ c ∈ digits, IsPlainDigit c) :
    valueOf digits < 10 ^ digits.length := by
  have bounded : ∀ d ∈ digits.reverse.map fun c => c.toNat - '0'.toNat, d < 10 := by
    intro d hd
    obtain ⟨c, inside, rfl⟩ := List.mem_map.1 hd
    obtain ⟨-, upper⟩ := plain c (List.mem_reverse.1 inside)
    have nine : c.toNat ≤ '9'.toNat := upper
    have zero : '0'.toNat = 48 := rfl
    have last : '9'.toNat = 57 := rfl
    omega
  simpa [valueOf] using Nat.ofDigits_lt_base_pow_length (by decide) bounded

theorem foldlM_digits_eq_some_iff {digits : List Char} {n : Nat} :
    digits.foldlM (fun n c => (digitValue? c).map (10 * n + ·)) 0 = some n ↔
      (∀ c ∈ digits, IsPlainDigit c) ∧ valueOf digits = n := by
  induction digits using List.reverseRecOn generalizing n with
  | nil => simp [valueOf, pure]
  | append_singleton digits c ih =>
    simp only [List.foldlM_append, List.foldlM_cons, List.foldlM_nil, Option.bind_eq_bind,
      Option.bind_eq_some_iff, ih, Option.map_eq_some_iff, digitValue?_eq_some_iff,
      valueOf_append, Option.pure_def, Option.some.injEq, List.mem_append, List.mem_singleton]
    constructor
    · rintro ⟨m, ⟨plain, rfl⟩, k, ⟨d, ⟨last, rfl⟩, rfl⟩, rfl⟩
      refine ⟨?_, rfl⟩
      rintro e (he | rfl)
      · exact plain e he
      · exact last
    · rintro ⟨plain, rfl⟩
      exact ⟨_, ⟨fun e he => plain e (.inl he), rfl⟩, _, ⟨_, ⟨plain c (.inr rfl), rfl⟩, rfl⟩, rfl⟩

theorem readNat?_eq_some_iff {digits : List Char} {n : Nat} :
    readNat? digits = some n ↔ Writes digits n := by
  unfold readNat? Writes
  split
  · rename_i empty
    simp [List.isEmpty_iff.1 empty]
  · rename_i nonempty
    rw [foldlM_digits_eq_some_iff]
    simp_all [List.isEmpty_iff]

theorem isPlainDigit_iff {c : Char} : IsPlainDigit c ↔ 48 ≤ c.toNat ∧ c.toNat ≤ 57 := Iff.rfl

theorem isDigit_of_plain {c : Char} (h : IsPlainDigit c) : isDigit c := by
  obtain ⟨lower, upper⟩ := isPlainDigit_iff.1 h
  have each : ∀ n < 58, 48 ≤ n → isDigit (Char.ofNat n) := by decide
  have own := each c.toNat (by omega) lower
  rwa [Char.ofNat_toNat] at own

/-- The value of a run is what its digits read as, also behind zeros. -/
theorem valueOf_eq (digits : List Char) : valueOf digits = Nat.ofDigitChars 10 digits 0 := by
  induction digits using List.reverseRecOn with
  | nil => rfl
  | append_singleton digits c ih =>
    rw [valueOf_append, Nat.ofDigitChars_append, ← ih, Nat.ofDigitChars_cons, Nat.ofDigitChars_nil]

theorem writeNat_zeros (width n : Nat) : (writeNat .zeros width n).toList =
    List.replicate (width - (Nat.toDigits 10 n).length) '0' ++ Nat.toDigits 10 n := by
  have unsigned : ¬ (n : Int) < 0 := by omega
  simp only [writeNat, writeInt, if_neg unsigned, Bool.false_eq_true, if_false, Int.natAbs_natCast,
    Nat.toString_eq_ofList_toDigits, padStart, String.toList_append, String.toList_ofList,
    List.leftpad]
  rfl

/-- A number with at most so many digits is written with zeros before it to that width. -/
theorem writes_writeNat {width n : Nat} (positive : 0 < width) (short : n < 10 ^ width) :
    Writes (writeNat .zeros width n).toList n ∧
      (writeNat .zeros width n).toList.length = width := by
  have fits := (Nat.length_toDigits_le_iff (by decide) positive).2 short
  rw [writeNat_zeros]
  refine ⟨⟨by simp, ?_, ?_⟩, by simp; omega⟩
  · intro c hc
    rcases List.mem_append.1 hc with zero | digit
    · rw [(List.mem_replicate.1 zero).2]
      decide
    · have plain := Nat.isDigit_of_mem_toDigits (by decide) (by decide) digit
      simp only [Char.isDigit, Bool.and_eq_true, decide_eq_true_eq] at plain
      exact plain
  · rw [valueOf_eq, Nat.ofDigitChars_append, Nat.ofDigitChars_replicate_zero, Nat.mul_zero,
      Nat.ofDigitChars_ten_toDigits]

/-- A nonempty run of digits of any script. -/
def IsNumeral (digits : List Char) : Prop := digits ≠ [] ∧ ∀ c ∈ digits, isDigit c

theorem isNumeral_of_writes {digits : List Char} {n : Nat} (h : Writes digits n) :
    IsNumeral digits := ⟨h.1, fun c hc => isDigit_of_plain (h.2.1 c hc)⟩

/-- The first numeral of a text, what stands before it and what stands behind it are determined. -/
theorem first_numeral_unique {before before' digits digits' rest rest' : List Char}
    (same : before ++ (digits ++ rest) = before' ++ (digits' ++ rest'))
    (clear : ∀ c ∈ before, isDigit c = false) (numeral : IsNumeral digits)
    (stops : Stops isDigit rest) (clear' : ∀ c ∈ before', isDigit c = false)
    (numeral' : IsNumeral digits') (stops' : Stops isDigit rest') :
    before = before' ∧ digits = digits' ∧ rest = rest' :=
  first_run_unique same clear numeral.1 numeral.2 stops clear' numeral'.1 numeral'.2 stops'

/-- The numerals that stand in a text, in their order. -/
def numerals (text : List Char) : List (List Char) :=
  (text.splitOnP fun c => !isDigit c).filter (· ≠ [])

/-- A character that is no digit parts the numerals before it from those behind it. -/
theorem numerals_append_cons {c : Char} (parts : isDigit c = false) (s rest : List Char) :
    numerals (s ++ c :: rest) = numerals s ++ numerals rest := by
  rw [numerals, List.splitOnP_append_cons s rest (by simp [parts]), List.filter_append]
  rfl

theorem numerals_clear_append {s rest : List Char} (clear : ∀ c ∈ s, isDigit c = false) :
    numerals (s ++ rest) = numerals rest := by
  induction s with
  | nil => rfl
  | cons c s ih =>
    calc numerals ([] ++ c :: (s ++ rest))
      _ = numerals [] ++ numerals (s ++ rest) := numerals_append_cons (clear c (by simp)) [] _
      _ = numerals rest := ih fun d hd => clear d (by simp [hd])

theorem numerals_of_clear {s : List Char} (clear : ∀ c ∈ s, isDigit c = false) :
    numerals s = [] := by
  rw [← List.append_nil s, numerals_clear_append clear]
  rfl

theorem numerals_of_isNumeral {run : List Char} (numeral : IsNumeral run) :
    numerals run = [run] := by
  have whole : run.splitOnP (fun c => !isDigit c) = [run] :=
    List.splitOnP_eq_singleton fun c hc => by simp [numeral.2 c hc]
  simp [numerals, whole, numeral.1]

theorem numerals_append {run rest : List Char} (numeral : IsNumeral run)
    (stops : Stops isDigit rest) : numerals (run ++ rest) = run :: numerals rest := by
  cases rest with
  | nil =>
    rw [List.append_nil, numerals_of_isNumeral numeral]
    rfl
  | cons c rest =>
    have parts := stops_cons.1 stops
    rw [numerals_append_cons parts, numerals_of_isNumeral numeral, ← List.singleton_append (x := c),
      numerals_clear_append (by simpa using parts), List.singleton_append]

/-- The numerals have all digits of the text. -/
theorem flatten_numerals (text : List Char) : (numerals text).flatten = text.filter isDigit := by
  rw [numerals, List.flatten_filter_ne_nil]
  induction text with
  | nil => rfl
  | cons c text ih =>
    rw [List.splitOnP_cons_eq_if_modifyHead]
    cases digit : isDigit c with
    | false => simp [digit, ih]
    | true =>
      obtain ⟨run, more, parts⟩ := List.exists_cons_of_ne_nil
        (List.splitOnP_ne_nil (fun c => !isDigit c) text)
      rw [parts] at ih
      simp [parts, digit, ← ih]

/-- A blank is no digit. -/
theorem isDigit_of_isBlank {c : Char} (blank : isBlank c) : isDigit c = false := by
  have each : ∀ n ∈ blankCodes, isDigit (Char.ofNat n) = false := by decide
  have own := each c.toNat (toNat_mem_blankCodes blank)
  rwa [Char.ofNat_toNat] at own

theorem undigited_of_gap {gap s : List Char} (blank : ∀ c ∈ gap, isBlank c)
    (clear : ∀ c ∈ s, isDigit c = false) : ∀ c ∈ gap ++ s, isDigit c = false :=
  List.forall_mem_append.2 ⟨fun c hc => isDigit_of_isBlank (blank c hc), clear⟩

theorem isBlank_of_isDigit {c : Char} (digit : isDigit c) : isBlank c = false := by
  cases blank : isBlank c with
  | false => rfl
  | true =>
    rw [isDigit_of_isBlank blank] at digit
    cases digit

/-- Lower case makes no digits. -/
theorem neverMade_digit : NeverMade isDigit := by
  have listed : ∀ c, isDigit c → decimalDigits.has c.toNat := by
    intro c h
    simp only [isDigit, Bool.and_eq_true] at h
    exact h.1
  exact neverMade (fun _ => of_simpleLower listed (by decide +kernel) (by decide +kernel)
    (by decide)) (by decide)

end DatePhrase.Text
