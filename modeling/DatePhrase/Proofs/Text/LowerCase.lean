import DatePhrase.Text.Blank
import DatePhrase.Text.Lower

/-! Texts that lower case leaves as they are, and blanks under lower case. A text is its own lower
case just when each of its characters is settled, that is, stays itself wherever it stands; so every
part of such a text is its own lower case too. Lower case makes no blanks and no text empty, so a
word without a blank at its end keeps none there. -/
namespace DatePhrase.Text

/-- A statement about each character of a given text is decided by going through that text.
The instances stand here since the library can also decide it by going through all of `Char`. -/
instance decidableForallMem (s : List Char) (p : Char → Prop) [DecidablePred p] :
    Decidable (∀ c ∈ s, p c) :=
  s.decidableBAll p

instance decidableForallMemOption (o : Option Char) (p : Char → Prop) [DecidablePred p] :
    Decidable (∀ c ∈ o, p c) :=
  o.decidableForallMem

/-- Lower case leaves the character as it is in every text. -/
def Settled (c : Char) : Prop := c ≠ 'Σ' ∧ c ≠ 'İ' ∧ simpleLower c = c

theorem lowerAt_of_settled {c : Char} (h : Settled c) (before after : List Char) :
    lowerAt before after c = [c] := by
  obtain ⟨sigma, dotted, same⟩ := h
  simp only [lowerAt, if_neg sigma, if_neg dotted, same]

theorem lowerAt_ne_nil (before after : List Char) (c : Char) : lowerAt before after c ≠ [] := by
  unfold lowerAt
  repeat' split
  all_goals exact List.cons_ne_nil _ _

theorem settled_of_lowerAt {before after : List Char} {c : Char}
    (h : lowerAt before after c = [c]) : Settled c := by
  unfold lowerAt at h
  split at h
  · subst c
    split at h <;> simp at h
  · rename_i sigma
    split at h
    · simp at h
    · rename_i dotted
      exact ⟨sigma, dotted, by simpa using h⟩

theorem lowerFrom_of_settled {s : List Char} (h : ∀ c ∈ s, Settled c) (before : List Char) :
    lowerFrom before s = s := by
  induction s generalizing before with
  | nil => rfl
  | cons c s ih =>
    rw [lowerFrom, lowerAt_of_settled (h c (by simp)), ih fun d hd => h d (by simp [hd])]
    rfl

theorem length_le_lowerFrom (before s : List Char) : s.length ≤ (lowerFrom before s).length := by
  induction s generalizing before with
  | nil => exact Nat.zero_le _
  | cons c s ih =>
    have first := List.length_pos_iff.2 (lowerAt_ne_nil before s c)
    have others := ih (c :: before)
    simp only [lowerFrom, List.length_append, List.length_cons]
    omega

/-- No character of a text that is its own lower case changes or grows. -/
theorem settled_of_lowerFrom {before s : List Char} (h : lowerFrom before s = s) :
    ∀ c ∈ s, Settled c := by
  induction s generalizing before with
  | nil => simp
  | cons c s ih =>
    have first := List.length_pos_iff.2 (lowerAt_ne_nil before s c)
    have others := length_le_lowerFrom (c :: before) s
    have total := congrArg List.length h
    simp only [lowerFrom, List.length_append, List.length_cons] at total
    have one : (lowerAt before s c).length = 1 := by omega
    obtain ⟨d, single⟩ := List.length_eq_one_iff.1 one
    rw [lowerFrom, single, List.singleton_append, List.cons.injEq] at h
    obtain ⟨rfl, same⟩ := h
    intro e he
    rcases List.mem_cons.1 he with rfl | later
    · exact settled_of_lowerAt single
    · exact ih same e later

theorem lower_ne_empty {w : String} (h : w ≠ "") : lower w ≠ "" := by
  intro empty
  have grown := length_le_lowerFrom [] w.toList
  have none : lowerFrom [] w.toList = [] := by simpa [lower, lowerChars] using empty
  rw [none] at grown
  exact h (by simpa using grown)

/-- The code points of the blanks. -/
def blankCodes : List Nat :=
  [9, 10, 11, 12, 13, 32, 0x85, 0xa0, 0x1680, 0x2000, 0x2001, 0x2002, 0x2003, 0x2004, 0x2005,
    0x2006, 0x2007, 0x2008, 0x2009, 0x200a, 0x2028, 0x2029, 0x202f, 0x205f, 0x3000]

theorem toNat_mem_blankCodes {c : Char} (h : isBlank c) : c.toNat ∈ blankCodes := by
  simp only [isBlank, Bool.or_eq_true, Bool.and_eq_true, decide_eq_true_eq, beq_iff_eq] at h
  simp only [blankCodes, List.mem_cons, List.not_mem_nil, or_false]
  omega

theorem toNat_ofNat_eq_or (n : Nat) : (Char.ofNat n).toNat = n ∨ (Char.ofNat n).toNat = 0 := by
  by_cases valid : n.isValidChar
  · left
    rw [Char.ofNat, dif_pos valid]
    rfl
  · right
    rw [Char.ofNat, dif_neg valid]
    rfl

/-- No image of the runs lies in ranges that keep clear of them. -/
theorem CaseRuns.has_image? {runs : CaseRuns} {codes : Ranges}
    (apart : ∀ run ∈ runs, ∀ r ∈ codes, r.2 < run.2.2.2 ∨ run.2.2.2 + (run.2.1 - run.1) < r.1)
    (positive : ∀ r ∈ codes, 0 < r.1) {c d : Char} (image : runs.image? c = some d) :
    codes.has d.toNat = false := by
  simp only [image?, Option.map_eq_some_iff, Prod.exists] at image
  obtain ⟨first, last, step, low, found, rfl⟩ := image
  have run := List.find?_some found
  simp only [Bool.and_eq_true, decide_eq_true_eq] at run
  rw [← Bool.not_eq_true, Ranges.has_iff]
  rintro ⟨r, hr, lower, upper⟩
  have outside := apart _ (List.mem_of_find?_eq_some found) _ hr
  have above := positive _ hr
  simp only at outside
  rcases toNat_ofNat_eq_or (low + (c.toNat - first)) with same | zero <;> omega

/-- Lower case takes no character into a class that was outside it, when no image of the table lies
in the class. -/
theorem of_simpleLower {p : Char → Bool} {codes : Ranges} (listed : ∀ c, p c → codes.has c.toNat)
    (ascii : ∀ n < 128, p (Char.ofNat n).toLower → p (Char.ofNat n))
    (apart : ∀ run ∈ lowerRuns, ∀ r ∈ codes,
      r.2 < run.2.2.2 ∨ run.2.2.2 + (run.2.1 - run.1) < r.1)
    (positive : ∀ r ∈ codes, 0 < r.1) {c : Char} (h : p (simpleLower c)) : p c := by
  unfold simpleLower at h
  split at h
  · rename_i small
    have own := ascii c.toNat small
    rw [Char.ofNat_toNat] at own
    exact own h
  · cases image : lowerRuns.image? c with
    | none => simpa [image] using h
    | some d =>
      simp only [image, Option.getD_some] at h
      have within := listed d h
      rw [CaseRuns.has_image? apart positive image] at within
      cases within

/-- Every character of the class that lower case writes comes from a character of the class. -/
def NeverMade (p : Char → Bool) : Prop :=
  ∀ before after c, ∀ d ∈ lowerAt before after c, p d → p c

theorem neverMade {p : Char → Bool} (simple : ∀ c, p (simpleLower c) → p c)
    (special : ∀ c ∈ ['ς', 'σ', 'i', '\u0307'], p c = false) : NeverMade p := by
  intro before after c d h made
  unfold lowerAt at h
  repeat' split at h
  · exact absurd made (by rw [List.mem_singleton.1 h]; simp [special])
  · exact absurd made (by rw [List.mem_singleton.1 h]; simp [special])
  · simp only [List.mem_cons, List.not_mem_nil, or_false] at h
    rcases h with rfl | rfl <;> exact absurd made (by simp [special])
  · rw [List.mem_singleton.1 h] at made
    exact simple c made

theorem exists_of_mem_lowerFrom {before s : List Char} {d : Char} (h : d ∈ lowerFrom before s) :
    ∃ c ∈ s, ∃ b a, d ∈ lowerAt b a c := by
  induction s generalizing before with
  | nil => simp [lowerFrom] at h
  | cons c s ih =>
    rcases List.mem_append.1 h with first | later
    · exact ⟨c, by simp, _, _, first⟩
    · obtain ⟨e, he, found⟩ := ih later
      exact ⟨e, by simp [he], found⟩

/-- Lower case makes no blanks. -/
theorem neverMade_blank : NeverMade isBlank := by
  have listed : ∀ c, isBlank c → Ranges.has (blankCodes.map fun n => (n, n)) c.toNat :=
    fun c h => Ranges.has_iff.2
      ⟨(c.toNat, c.toNat), List.mem_map_of_mem (toNat_mem_blankCodes h), Nat.le_refl _,
        Nat.le_refl _⟩
  exact neverMade (fun _ => of_simpleLower listed (by decide) (by decide +kernel) (by decide))
    (by decide)

/-- The text does not end in a blank. -/
def Tight (s : List Char) : Prop := ∀ c ∈ s.getLast?, isBlank c = false

instance (s : List Char) : Decidable (Tight s) :=
  inferInstanceAs (Decidable (∀ c ∈ s.getLast?, _))

theorem tight_trimEnd (s : List Char) : Tight (trimEnd s) := by
  intro c hc
  rw [trimEnd, List.getLast?_reverse] at hc
  have first := List.head?_dropWhile_not isBlank s.reverse
  rwa [Option.mem_def.1 hc] at first

theorem trimEnd_append {s gap : List Char} (tight : Tight s) (blank : ∀ c ∈ gap, isBlank c) :
    trimEnd (s ++ gap) = s := by
  have passed : ∀ c ∈ gap.reverse, isBlank c := fun c hc => blank c (List.mem_reverse.1 hc)
  rw [trimEnd, List.reverse_append, List.dropWhile_append_of_pos passed]
  have kept : s.reverse.dropWhile isBlank = s.reverse := by
    cases reversed : s.reverse with
    | nil => rfl
    | cons c rest =>
      have last : c ∈ s.getLast? := by rw [List.getLast?_eq_head?_reverse, reversed]; rfl
      exact List.dropWhile_cons_of_neg (by simp [tight c last])
  rw [kept, List.reverse_reverse]

theorem tight_lowerFrom {s : List Char} (tight : Tight s) (before : List Char) :
    Tight (lowerFrom before s) := by
  induction s generalizing before with
  | nil => exact tight
  | cons c s ih =>
    intro d hd
    rw [lowerFrom, List.getLast?_append] at hd
    cases s with
    | nil =>
      have solid : isBlank c = false := tight c rfl
      have last : d ∈ lowerAt before [] c := List.mem_of_getLast? hd
      cases blank : isBlank d with
      | false => rfl
      | true => rw [neverMade_blank _ _ _ _ last blank] at solid; exact solid
    | cons e s =>
      have grown := length_le_lowerFrom (c :: before) (e :: s)
      cases last : (lowerFrom (c :: before) (e :: s)).getLast? with
      | none =>
        rw [List.getLast?_eq_none_iff.1 last] at grown
        simp at grown
      | some f =>
        rw [last, Option.some_or] at hd
        exact ih (fun x hx => tight x hx) (c :: before) d (last ▸ hd)

end DatePhrase.Text
