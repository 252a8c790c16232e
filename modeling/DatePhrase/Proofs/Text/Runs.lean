import DatePhrase.Proofs.Text.LowerCase
import Mathlib.Data.List.TakeWhile

/-! Runs of characters of one class. A text divides in one way only into a run and a rest that does
not go on with it, so two divisions of a text agree part by part. Blanks around a text without
blanks at its ends are trimmed off, and lower case keeps such ends. -/
namespace DatePhrase.Text
variable {p : Char → Bool}

/-- The text does not begin with a character of the class. -/
def Stops (p : Char → Bool) (s : List Char) : Prop := ∀ c ∈ s.head?, p c = false

instance (p : Char → Bool) (s : List Char) : Decidable (Stops p s) :=
  inferInstanceAs (Decidable (∀ c ∈ s.head?, _))

theorem stops_nil : Stops p [] := nofun

theorem stops_cons {c : Char} {s : List Char} : Stops p (c :: s) ↔ p c = false := by
  simp [Stops]

theorem stops_append {s rest : List Char} (nonempty : s ≠ []) :
    Stops p (s ++ rest) ↔ Stops p s := by
  obtain ⟨c, s, rfl⟩ := List.exists_cons_of_ne_nil nonempty
  rw [List.cons_append, stops_cons, stops_cons]

/-- Characters outside the class may stand before. -/
theorem stops_of_clear {s rest : List Char} (clear : ∀ c ∈ s, p c = false) (stops : Stops p rest) :
    Stops p (s ++ rest) := by
  cases s with
  | nil => exact stops
  | cons c s => exact stops_cons.2 (clear c (by simp))

theorem tight_append {s rest : List Char} (nonempty : rest ≠ []) :
    Tight (s ++ rest) ↔ Tight rest := by
  rcases List.eq_nil_or_concat rest with rfl | ⟨rest, c, rfl⟩
  · exact absurd rfl nonempty
  · simp [Tight, ← List.append_assoc]

theorem takeWhile_run {run rest : List Char} (all : ∀ c ∈ run, p c) (stops : Stops p rest) :
    (run ++ rest).takeWhile p = run := by
  rw [List.takeWhile_append_of_pos all]
  cases rest with
  | nil => simp
  | cons c rest =>
    rw [List.takeWhile_cons_of_neg (by simp [stops_cons.1 stops]), List.append_nil]

/-- A text divides in one way into a run and what does not go on with it. -/
theorem run_unique {run run' rest rest' : List Char} (same : run ++ rest = run' ++ rest')
    (all : ∀ c ∈ run, p c) (stops : Stops p rest) (all' : ∀ c ∈ run', p c)
    (stops' : Stops p rest') : run = run' ∧ rest = rest' := by
  have equal : run = run' := by
    rw [← takeWhile_run all stops, ← takeWhile_run all' stops', same]
  subst equal
  exact ⟨rfl, List.append_cancel_left same⟩

/-- The first run of a class, what stands before it and what behind it are determined. -/
theorem first_run_unique {before before' run run' rest rest' : List Char}
    (same : before ++ (run ++ rest) = before' ++ (run' ++ rest'))
    (clear : ∀ c ∈ before, p c = false) (nonempty : run ≠ []) (all : ∀ c ∈ run, p c)
    (stops : Stops p rest) (clear' : ∀ c ∈ before', p c = false) (nonempty' : run' ≠ [])
    (all' : ∀ c ∈ run', p c) (stops' : Stops p rest') :
    before = before' ∧ run = run' ∧ rest = rest' := by
  have begins : ∀ {run more : List Char}, run ≠ [] → (∀ c ∈ run, p c) →
      Stops (fun c => !p c) (run ++ more) := by
    intro run more nonempty all
    rw [stops_append nonempty]
    intro c hc
    simp [all c (List.mem_of_mem_head? hc)]
  obtain ⟨front, back⟩ := run_unique same (fun c hc => by simp [clear c hc]) (begins nonempty all)
    (fun c hc => by simp [clear' c hc]) (begins nonempty' all')
  exact ⟨front, run_unique back all stops all' stops'⟩

theorem stops_trimEnd {s : List Char} (stops : Stops isBlank s) : Stops isBlank (trimEnd s) := by
  have whole : s.reverse.takeWhile isBlank ++ s.reverse.dropWhile isBlank = s.reverse :=
    List.takeWhile_append_dropWhile
  have parts := congrArg List.reverse whole
  rw [List.reverse_append, List.reverse_reverse] at parts
  by_cases empty : trimEnd s = []
  · rw [empty]
    exact stops_nil
  · rw [← parts] at stops
    exact (stops_append empty).1 stops

theorem stops_trimBlanks (s : List Char) : Stops isBlank (trimBlanks s) := by
  apply stops_trimEnd
  intro c hc
  have first := List.head?_dropWhile_not isBlank s
  rw [trimStart] at hc
  rwa [Option.mem_def.1 hc] at first

theorem stops_lowerFrom (never : NeverMade p) {s : List Char} (stops : Stops p s)
    (before : List Char) : Stops p (lowerFrom before s) := by
  cases s with
  | nil => exact stops_nil
  | cons c s =>
    rw [lowerFrom, stops_append (lowerAt_ne_nil before s c)]
    intro d hd
    cases made : p d with
    | false => rfl
    | true =>
      rw [stops_cons, never _ _ _ _ (List.mem_of_mem_head? hd) made] at stops
      exact stops

/-- A text without blanks at its ends is what trimming leaves of it between blanks. -/
theorem trimBlanks_between {before s after : List Char} (blank : ∀ c ∈ before, isBlank c)
    (stops : Stops isBlank s) (tight : Tight s) (blank' : ∀ c ∈ after, isBlank c) :
    trimBlanks (before ++ s ++ after) = s := by
  rw [trimBlanks, trimStart, List.append_assoc, List.dropWhile_append_of_pos blank]
  cases s with
  | nil =>
    rw [List.nil_append, List.dropWhile_eq_nil_iff.2 blank']
    rfl
  | cons c s =>
    rw [List.cons_append, List.dropWhile_cons_of_neg (by simp [stops_cons.1 stops]),
      ← List.cons_append, trimEnd_append tight blank']

theorem trimBlanks_behind {before s : List Char} (blank : ∀ c ∈ before, isBlank c)
    (stops : Stops isBlank s) (tight : Tight s) : trimBlanks (before ++ s) = s := by
  rw [← List.append_nil (before ++ s)]
  exact trimBlanks_between blank stops tight nofun

theorem trimBlanks_eq_self {s : List Char} (stops : Stops isBlank s) (tight : Tight s) :
    trimBlanks s = s := by
  rw [← List.nil_append s]
  exact trimBlanks_behind nofun stops tight

end DatePhrase.Text
