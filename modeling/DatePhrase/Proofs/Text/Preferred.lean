import DatePhrase.Proofs.Text.Cuts
import DatePhrase.Proofs.Text.Runs

/-! The preferred way of a cut, the first of its ways. Preferred ways of parts that fit together
make the preferred way of a composite: a run of a class is taken as a whole, an optional part is
taken where it can be, and of words in order of length the one that is all of the text is taken. The
other way round, what a composite prefers goes by ways of its parts. -/
namespace DatePhrase.Text

namespace Cut
variable {α β : Type} {c d : Cut α} {a : α} {b : β} {s mid rest : List Char}

/-- The first way of the cut is the value with this rest. -/
def Prefers (c : Cut α) (s : List Char) (a : α) (rest : List Char) : Prop :=
  (c s).head? = some (a, rest)

/-- A single way is the preferred one. -/
theorem prefers_of_only (found : (a, rest) ∈ c s) (only : ∀ way ∈ c s, way = (a, rest)) :
    c.Prefers s a rest := by
  obtain ⟨first, others, ways⟩ := List.exists_cons_of_ne_nil (List.ne_nil_of_mem found)
  rw [Prefers, ways, List.head?_cons, only first (by simp [ways])]

theorem prefers_pure : (pure a : Cut α).Prefers s a s := rfl

theorem Prefers.bind {f : α → Cut β} (first : c.Prefers s a mid)
    (later : (f a).Prefers mid b rest) : (c >>= f).Prefers s b rest := by
  obtain ⟨others, ways⟩ := List.head?_eq_some_iff.1 first
  have composite : (c >>= f) s = f a mid ++ others.flatMap fun way => f way.1 way.2 := by
    simp only [Bind.bind, ways, List.flatMap_cons]
  rw [Prefers, composite, List.head?_append, later, Option.some_or]

/-- Where every value can be gone on from, the preferred way goes by the preferred values. -/
theorem exists_of_prefers_bind {f : α → Cut β} (goes : ∀ a mid, f a mid ≠ [])
    (h : (c >>= f).Prefers s b rest) :
    ∃ a mid, c.Prefers s a mid ∧ (f a).Prefers mid b rest := by
  cases ways : c s with
  | nil => simp [Prefers, Bind.bind, ways] at h
  | cons way others =>
    refine ⟨way.1, way.2, by rw [Prefers, ways]; rfl, ?_⟩
    obtain ⟨first, more, later⟩ := List.exists_cons_of_ne_nil (goes way.1 way.2)
    simp only [Prefers, Bind.bind, ways, List.flatMap_cons, later, List.cons_append,
      List.head?_cons] at h ⊢
    exact h

/-- A value that is made of another one is preferred where that is. -/
theorem exists_of_prefers_bind_pure {f : α → β}
    (h : (c >>= fun a => pure (f a)).Prefers s b rest) : ∃ a, c.Prefers s a rest ∧ b = f a := by
  obtain ⟨a, mid, first, last⟩ := exists_of_prefers_bind (fun _ _ => List.cons_ne_nil _ _) h
  obtain ⟨same, rfl⟩ := mem_pure.1 (List.mem_of_mem_head? last)
  exact ⟨a, first, same⟩

/-- The preferred way of a composite goes by some way of its first part. -/
theorem exists_mem_of_prefers_bind {f : α → Cut β} (h : (c >>= f).Prefers s b rest) :
    ∃ a mid, (a, mid) ∈ c s ∧ (f a).Prefers mid b rest := by
  simp only [Prefers, Bind.bind, List.head?_flatMap] at h
  obtain ⟨⟨a, mid⟩, way, later⟩ := List.exists_of_findSome?_eq_some h
  exact ⟨a, mid, way, later⟩

theorem Prefers.map {f : α → β} (h : c.Prefers s a rest) : (f <$> c).Prefers s (f a) rest :=
  h.bind prefers_pure

theorem Prefers.or (h : c.Prefers s a rest) : (c.or d).Prefers s a rest := by
  rw [Prefers, Cut.or, List.head?_append, h, Option.some_or]

theorem Prefers.or_second (none : c s = []) (h : d.Prefers s a rest) :
    (c.or d).Prefers s a rest := by
  rw [Prefers, Cut.or, none, List.nil_append, h]

theorem Prefers.optional (h : c.Prefers s a rest) : c.optional.Prefers s (some a) rest :=
  h.map.or

theorem prefers_optional_none (none : c s = []) : c.optional.Prefers s .none s := by
  refine .or_second ?_ prefers_pure
  simp only [Functor.map, none, List.flatMap_nil]

theorem prefers_of_prefers_or (h : (c.or d).Prefers s a rest) :
    c.Prefers s a rest ∨ c s = [] ∧ d.Prefers s a rest := by
  rw [Prefers, Cut.or, List.head?_append, Option.or_eq_some_iff, List.head?_eq_none_iff] at h
  exact h

theorem prefers_of_prefers_optional (h : c.optional.Prefers s (some a) rest) :
    c.Prefers s a rest := by
  rcases prefers_of_prefers_or h with taken | ⟨-, skipped⟩
  · obtain ⟨b, first, same⟩ := exists_of_prefers_bind_pure (f := some) taken
    rwa [Option.some.inj same]
  · cases (mem_pure.1 (List.mem_of_mem_head? skipped)).1

variable {p : Char → Bool} {run : List Char}

theorem prefers_char {x : Char} (h : p x) : (char p).Prefers (x :: rest) x rest := by
  simp [Prefers, char, h]

/-- Where the text begins with no character of the class there is no way. -/
theorem char_bind_eq_nil {f : Char → Cut β} (stops : Stops p s) : (char p >>= f) s = [] := by
  cases s with
  | nil => rfl
  | cons x s => simp [Bind.bind, char, stops_cons.1 stops]

/-- As much of a run is taken as is allowed. -/
theorem prefers_upTo {n : Nat} (all : ∀ x ∈ run, p x) (short : run.length ≤ n)
    (ends : run.length = n ∨ Stops p rest) : (upTo p n).Prefers (run ++ rest) run rest := by
  induction run generalizing n with
  | nil =>
    cases n with
    | zero => rfl
    | succ n =>
      have stops : Stops p rest := ends.resolve_left (by simp)
      cases rest with
      | nil => rfl
      | cons x rest => simp [Prefers, upTo, stops_cons.1 stops]
  | cons x run ih =>
    cases n with
    | zero => simp at short
    | succ n =>
      simp only [List.length_cons, Nat.add_le_add_iff_right, Nat.add_right_cancel_iff] at short ends
      have more := ih (fun y hy => all y (by simp [hy])) short ends
      rw [Prefers] at more ⊢
      simp only [List.cons_append, upTo, all x (by simp), if_true, List.head?_append,
        List.head?_map, more, Option.map_some, Option.some_or]

theorem prefers_many (all : ∀ x ∈ run, p x) (stops : Stops p rest) :
    (many p).Prefers (run ++ rest) run rest :=
  prefers_upTo all (by simp) (.inr stops)

theorem prefers_oneTo {n : Nat} (nonempty : run ≠ []) (all : ∀ x ∈ run, p x)
    (short : run.length ≤ n) (ends : run.length = n ∨ Stops p rest) :
    (oneTo n p).Prefers (run ++ rest) run rest := by
  obtain ⟨x, run, rfl⟩ := List.exists_cons_of_ne_nil nonempty
  cases n with
  | zero => simp at short
  | succ n =>
    simp only [List.length_cons, Nat.add_le_add_iff_right, Nat.add_right_cancel_iff] at short ends
    exact (prefers_char (all x (by simp))).bind
      ((prefers_upTo (fun y hy => all y (by simp [hy])) short ends).bind prefers_pure)

theorem prefers_atLeastOne (nonempty : run ≠ []) (all : ∀ x ∈ run, p x) (stops : Stops p rest) :
    (atLeastOne p).Prefers (run ++ rest) run rest := by
  obtain ⟨x, run, rfl⟩ := List.exists_cons_of_ne_nil nonempty
  exact (prefers_char (all x (by simp))).bind
    ((prefers_many (fun y hy => all y (by simp [hy])) stops).bind prefers_pure)

theorem prefers_exactly (all : ∀ x ∈ run, p x) :
    (exactly p run.length).Prefers (run ++ rest) run rest := by
  induction run with
  | nil => rfl
  | cons x run ih =>
    exact (prefers_char (all x (by simp))).bind
      ((ih fun y hy => all y (by simp [hy])).bind prefers_pure)

/-- Where longer words are tried first, the longest one that begins the text is taken. -/
theorem prefers_oneOf {words : List String}
    (longest : words.Pairwise fun v w => w.length ≤ v.length) (spelled : Spells words s)
    (most : ∀ t, Spells words t → t <+: s ++ rest → t.length ≤ s.length) :
    (oneOf words).Prefers (s ++ rest) s rest := by
  induction words with
  | nil => exact absurd spelled (by simp [Spells])
  | cons v words ih =>
    obtain ⟨shorter, later⟩ := List.pairwise_cons.1 longest
    obtain ⟨w, listed, same⟩ := spelled
    have width : s.length = w.length := by
      simpa [String.length_toList] using congrArg List.length same
    have bound : s.length ≤ v.length := by
      rcases List.mem_cons.1 listed with rfl | behind
      · exact Nat.le_of_eq width
      · exact width ▸ shorter w behind
    rw [Prefers, oneOf, List.flatMap_cons, List.head?_append]
    cases first : (word v (s ++ rest)).head? with
    | none =>
      have behind : w ∈ words := by
        rcases List.mem_cons.1 listed with rfl | behind
        · have way : (s, rest) ∈ word w (s ++ rest) := mem_letters.2 ⟨rfl, same⟩
          simp [List.head?_eq_none_iff.1 first] at way
        · exact behind
      rw [Option.none_or]
      refine ih later ⟨w, behind, same⟩ fun t inside => ?_
      obtain ⟨u, known, spells⟩ := inside
      exact most t ⟨u, List.mem_cons_of_mem v known, spells⟩
    | some way =>
      obtain ⟨t, left⟩ := way
      obtain ⟨parts, spells⟩ := mem_letters.1 (List.mem_of_mem_head? first)
      have taken : t.length = v.length := by
        simpa [String.length_toList] using congrArg List.length spells
      have short := most t ⟨v, List.mem_cons_self, spells⟩ ⟨left, parts.symm⟩
      obtain ⟨rfl, rfl⟩ := List.append_inj parts (by omega)
      rfl

/-- Where longer words are tried first, no longer one than the one taken begins the text. -/
theorem length_le_of_prefers_oneOf {words : List String}
    (longest : words.Pairwise fun v w => w.length ≤ v.length) {t u : List Char}
    (taken : (oneOf words).Prefers s t rest) (spelled : Spells words u) (begins : u <+: s) :
    u.length ≤ t.length := by
  induction words with
  | nil => exact absurd spelled (by simp [Spells])
  | cons v words ih =>
    obtain ⟨shorter, later⟩ := List.pairwise_cons.1 longest
    obtain ⟨w, listed, same⟩ := spelled
    have width : u.length = w.length := by
      simpa [String.length_toList] using congrArg List.length same
    rw [Prefers, oneOf, List.flatMap_cons, List.head?_append] at taken
    cases first : (word v s).head? with
    | none =>
      have behind : w ∈ words := by
        rcases List.mem_cons.1 listed with rfl | behind
        · obtain ⟨left, parts⟩ := begins
          have way : (u, left) ∈ word w s := mem_letters.2 ⟨parts.symm, same⟩
          simp [List.head?_eq_none_iff.1 first] at way
        · exact behind
      rw [first, Option.none_or] at taken
      exact ih later taken ⟨w, behind, same⟩
    | some way =>
      obtain rfl : way = (t, rest) := by simpa [first] using taken
      obtain ⟨-, spells⟩ := mem_letters.1 (List.mem_of_mem_head? first)
      have long : t.length = v.length := by
        simpa [String.length_toList] using congrArg List.length spells
      rcases List.mem_cons.1 listed with rfl | behind
      · omega
      · have bound := shorter w behind
        omega

/-- Where longer words are tried first, a text that is one of them is taken as a whole. -/
theorem prefers_oneOf_whole {words : List String}
    (longest : words.Pairwise fun v w => w.length ≤ v.length) (spelled : Spells words s) :
    (oneOf words).Prefers s s [] := by
  have whole : (oneOf words).Prefers (s ++ []) s [] :=
    prefers_oneOf longest spelled fun t _ begins => by simpa using begins.length_le
  rwa [List.append_nil] at whole

theorem Prefers.taken {t : List Char} (h : c.Prefers (t ++ rest) a rest) :
    c.taken.Prefers (t ++ rest) (t, a) rest := by
  rw [Prefers] at h ⊢
  simp [Cut.taken, List.head?_map, h]

theorem prefers_of_prefers_taken {t : List Char} (forward : c.Forward)
    (h : c.taken.Prefers s (t, a) rest) : s = t ++ rest ∧ c.Prefers s a rest := by
  refine ⟨((mem_taken forward).1 (List.mem_of_mem_head? h)).2, ?_⟩
  rw [Prefers, taken, List.head?_map, Option.map_eq_some_iff] at h
  obtain ⟨⟨b, left⟩, first, same⟩ := h
  simp only [Prod.mk.injEq] at same
  obtain ⟨⟨-, rfl⟩, rfl⟩ := same
  exact first

/-- A text is read as a whole by the preferred way if that leaves nothing. -/
theorem Prefers.all? (h : c.Prefers s a []) : c.all? s = some a := by
  obtain ⟨others, ways⟩ := List.head?_eq_some_iff.1 h
  simp [Cut.all?, ways]

end Cut

end DatePhrase.Text
