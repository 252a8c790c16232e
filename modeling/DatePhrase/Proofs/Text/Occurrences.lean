import DatePhrase.Proofs.Text.Runs

/-! Where a word may stand in a text that is put together from parts. A word without digits stands
before a numeral or behind it, and a word without blanks at its ends stands beside blanks, never
across them. -/
namespace DatePhrase.Text
variable {p : Char → Bool} {w a b : List Char}

/-- A text cannot both begin with a character of the class and not. -/
theorem false_of_begins {c : Char} {s t rest : List Char} (word : w ≠ []) (stops : Stops p w)
    (inside : p c) (same : w ++ rest = c :: s ++ t) : False := by
  have first : Stops p (w ++ rest) := (stops_append word).2 stops
  rw [same, List.cons_append, stops_cons, inside] at first
  cases first

/-- A word that does not begin with a character of a class stands behind a run of the class. -/
theorem occurs_behind_run {run back : List Char} (all : ∀ c ∈ run, p c) (word : w ≠ [])
    (stops : Stops p w) (same : run ++ back = a ++ (w ++ b)) :
    ∃ x, back = x ++ (w ++ b) ∧ a = run ++ x := by
  rcases List.append_eq_append_iff.1 same with ⟨x, rfl, later⟩ | ⟨x, rfl, later⟩
  · exact ⟨x, later, rfl⟩
  · cases x with
    | nil => exact ⟨[], by simpa using later.symm, by simp⟩
    | cons c x => exact (false_of_begins word stops (all c (by simp)) later).elim

/-- A word with no character of a class stands before a run of the class or behind it. -/
theorem occurs_beside_run {front run back : List Char} (nonempty : run ≠ [])
    (all : ∀ c ∈ run, p c) (word : w ≠ []) (clear : ∀ c ∈ w, p c = false)
    (same : front ++ (run ++ back) = a ++ (w ++ b)) :
    (∃ y, front = a ++ (w ++ y)) ∨ ∃ x, back = x ++ (w ++ b) ∧ a = front ++ (run ++ x) := by
  rcases List.append_eq_append_iff.1 same with ⟨x, rfl, later⟩ | ⟨x, rfl, later⟩
  · have stops : Stops p w := fun c hc => clear c (List.mem_of_mem_head? hc)
    obtain ⟨y, rest, rfl⟩ := occurs_behind_run all word stops later
    exact .inr ⟨y, rest, rfl⟩
  · rcases List.append_eq_append_iff.1 later with ⟨y, rfl, -⟩ | ⟨y, rfl, tail⟩
    · exact .inl ⟨y, rfl⟩
    · cases y with
      | nil => exact .inl ⟨[], by simp⟩
      | cons c y =>
        have begins : Stops (fun c => !p c) run := fun d hd => by
          simp [all d (List.mem_of_mem_head? hd)]
        exact (false_of_begins nonempty begins (by simp [clear c]) tail).elim

/-- A word that does not end in a blank stands before the blanks at the end of a text. -/
theorem occurs_before_blanks {front gap : List Char} (blank : ∀ c ∈ gap, isBlank c) (word : w ≠ [])
    (tight : Tight w) (same : front ++ gap = a ++ (w ++ b)) : ∃ y, front = a ++ (w ++ y) := by
  rw [← List.append_assoc] at same
  rcases List.append_eq_append_iff.1 same with ⟨x, parts, later⟩ | ⟨x, rfl, -⟩
  · rcases List.eq_nil_or_concat x with rfl | ⟨x, c, rfl⟩
    · exact ⟨[], by simpa using parts.symm⟩
    · -- the last character of the word is one of the blanks
      obtain ⟨w, d, rfl⟩ := (List.eq_nil_or_concat w).resolve_left word
      have last : c = d := by
        have ends := congrArg List.getLast? parts
        simpa using ends.symm
      have inside := blank c (by simp [later])
      rw [last, tight d (by simp)] at inside
      cases inside
  · exact ⟨x, by rw [List.append_assoc]⟩

/-- A part of characters of a class that reaches over a place behind none of them begins there. -/
theorem begins_of_delimited {before part after s : List Char} (all : ∀ c ∈ part, p c)
    (same : before ++ (part ++ after) = a ++ s) (first : before.length ≤ a.length)
    (last : a.length < before.length + part.length) (front : ∀ c ∈ a.getLast?, p c = false) :
    before = a ∧ part ++ after = s := by
  rcases List.append_eq_append_iff.1 same with ⟨x, rfl, later⟩ | ⟨x, rfl, later⟩
  · rcases List.eq_nil_or_concat x with rfl | ⟨y, c, rfl⟩
    · exact ⟨by simp, by simpa using later⟩
    · -- the character before the place is one of the part
      rw [List.concat_eq_append] at front last later
      have short : (y ++ [c]).length ≤ part.length := by
        rw [List.length_append] at last
        omega
      have inside : y ++ [c] <+: part :=
        List.prefix_of_prefix_length_le ⟨s, later.symm⟩ ⟨after, rfl⟩ short
      have outside := front c (by simp)
      rw [all c (inside.subset (by simp))] at outside
      cases outside
  · have none : x = [] := List.length_eq_zero_iff.1 (by
      rw [List.length_append] at first
      omega)
    subst none
    exact ⟨by simp, by simpa using later.symm⟩

/-- A part of characters of a class that is no shorter than a word without one behind it is the
word, where both begin at one place. -/
theorem ends_of_delimited {part after : List Char} (all : ∀ c ∈ part, p c)
    (same : part ++ after = w ++ b) (long : w.length ≤ part.length) (back : Stops p b) :
    part = w ∧ after = b := by
  obtain ⟨y, rfl⟩ : w <+: part := List.prefix_of_prefix_length_le ⟨b, rfl⟩ ⟨after, same⟩ long
  rw [List.append_assoc] at same
  have rest := List.append_cancel_left same
  cases y with
  | nil => exact ⟨by simp, rest⟩
  | cons c y =>
    have outside := back c (by simp [← rest])
    rw [all c (by simp)] at outside
    cases outside

end DatePhrase.Text
