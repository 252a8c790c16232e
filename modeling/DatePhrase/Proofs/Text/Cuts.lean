import DatePhrase.Text.Cut

/-! Which values the composite cuts read, and what a search finds: every stretch found by a scan
carries a value that its cut reads at some place. A cut that only goes forward leaves an end of the
text, and the text taken by it is what stands before that end. -/
namespace DatePhrase.Text

namespace Cut
variable {α β : Type}

theorem map_eq (f : α → β) (c : Cut α) (s : List Char) :
    (f <$> c) s = (c s).map fun way => (f way.1, way.2) := by
  simp only [Functor.map, List.map_eq_flatMap]
  rfl

instance : LawfulMonad Cut :=
  .mk' Cut (fun c => funext fun s => by rw [map_eq]; exact List.map_id _)
    (fun a f => funext fun s => List.flatMap_singleton _ _)
    (fun c f g => funext fun s => List.flatMap_assoc)

theorem map_or (f : α → β) (c d : Cut α) : f <$> c.or d = (f <$> c).or (f <$> d) :=
  funext fun _ => List.flatMap_append

theorem taken_or (c d : Cut α) : (c.or d).taken = c.taken.or d.taken :=
  funext fun _ => List.map_append

theorem taken_map (f : α → β) (c : Cut α) :
    (f <$> c).taken = (fun way => (way.1, f way.2)) <$> c.taken := by
  funext s
  simp only [map_eq, taken, List.map_map, Function.comp_def]

theorem mem_map {c : Cut α} {f : α → β} {b : β} {s rest : List Char} :
    (b, rest) ∈ (f <$> c) s ↔ ∃ a, (a, rest) ∈ c s ∧ b = f a := by
  change (b, rest) ∈ (c >>= fun a => pure (f a)) s ↔ _
  simp only [mem_bind, mem_pure]
  constructor
  · rintro ⟨a, _, ha, rfl, rfl⟩
    exact ⟨a, ha, rfl⟩
  · rintro ⟨a, ha, rfl⟩
    exact ⟨a, rest, ha, rfl, rfl⟩

theorem mem_atLeastOne {p : Char → Bool} {t s rest : List Char} :
    (t, rest) ∈ atLeastOne p s ↔ s = t ++ rest ∧ t ≠ [] ∧ ∀ c ∈ t, p c := by
  simp only [atLeastOne, mem_bind, mem_char, mem_many, mem_pure]
  constructor
  · rintro ⟨c, _, ⟨hc, rfl⟩, more, _, ⟨rfl, hmore⟩, rfl, rfl⟩
    exact ⟨rfl, by simp, by simpa [hc] using hmore⟩
  · rintro ⟨rfl, nonempty, hall⟩
    obtain ⟨c, more, rfl⟩ := List.exists_cons_of_ne_nil nonempty
    exact ⟨c, more ++ rest, ⟨hall c (by simp), rfl⟩, more, rest,
      ⟨rfl, fun d hd => hall d (by simp [hd])⟩, rfl, rfl⟩

theorem mem_oneTo {p : Char → Bool} {n : Nat} {t s rest : List Char} :
    (t, rest) ∈ oneTo n p s ↔ s = t ++ rest ∧ t ≠ [] ∧ t.length ≤ n ∧ ∀ c ∈ t, p c := by
  cases n with
  | zero =>
    simp only [oneTo, fail, List.not_mem_nil, false_iff]
    rintro ⟨-, nonempty, short, -⟩
    exact nonempty (List.length_eq_zero_iff.1 (Nat.le_zero.1 short))
  | succ n =>
    simp only [oneTo, mem_bind, mem_char, mem_upTo, mem_pure]
    constructor
    · rintro ⟨c, _, ⟨hc, rfl⟩, more, _, ⟨rfl, short, all⟩, rfl, rfl⟩
      exact ⟨rfl, by simp, by simpa using short, by simpa [hc] using all⟩
    · rintro ⟨rfl, nonempty, short, all⟩
      obtain ⟨c, more, rfl⟩ := List.exists_cons_of_ne_nil nonempty
      exact ⟨c, more ++ rest, ⟨all c (by simp), rfl⟩, more, rest,
        ⟨rfl, by simpa using short, fun d hd => all d (by simp [hd])⟩, rfl, rfl⟩

theorem mem_exactly {p : Char → Bool} {n : Nat} {t s rest : List Char} :
    (t, rest) ∈ exactly p n s ↔ s = t ++ rest ∧ t.length = n ∧ ∀ c ∈ t, p c := by
  induction n generalizing t s rest with
  | zero =>
    simp only [exactly, mem_pure, List.length_eq_zero_iff]
    constructor
    · rintro ⟨rfl, rfl⟩
      exact ⟨rfl, rfl, nofun⟩
    · rintro ⟨rfl, rfl, -⟩
      exact ⟨rfl, rfl⟩
  | succ n ih =>
    simp only [exactly, mem_bind, mem_char, ih, mem_pure]
    constructor
    · rintro ⟨c, _, ⟨hc, rfl⟩, more, _, ⟨rfl, rfl, all⟩, rfl, rfl⟩
      exact ⟨rfl, rfl, by simpa [hc] using all⟩
    · rintro ⟨rfl, count, all⟩
      obtain ⟨c, more, rfl⟩ := List.exists_cons_of_length_eq_add_one count
      exact ⟨c, more ++ rest, ⟨all c (by simp), rfl⟩, more, rest,
        ⟨rfl, by simpa using count, fun d hd => all d (by simp [hd])⟩, rfl, rfl⟩

theorem mem_optional {c : Cut α} {a : Option α} {s rest : List Char} :
    (a, rest) ∈ c.optional s ↔ (∃ b, a = some b ∧ (b, rest) ∈ c s) ∨ a = none ∧ rest = s := by
  simp only [optional, mem_or, mem_map, mem_pure]
  constructor
  · rintro (⟨b, read, rfl⟩ | skipped)
    · exact .inl ⟨b, rfl, read⟩
    · exact .inr skipped
  · rintro (⟨b, rfl, read⟩ | skipped)
    · exact .inl ⟨b, read, rfl⟩
    · exact .inr skipped

/-- The text is one of the words, in some case. -/
def Spells (words : List String) (t : List Char) : Prop :=
  ∃ w ∈ words, t.map fold = w.toList.map fold

theorem mem_oneOf_iff {words : List String} {t s rest : List Char} :
    (t, rest) ∈ oneOf words s ↔ s = t ++ rest ∧ Spells words t := by
  simp only [mem_oneOf, word, mem_letters, Spells]
  constructor
  · rintro ⟨w, listed, cut, same⟩
    exact ⟨cut, w, listed, same⟩
  · rintro ⟨cut, w, listed, same⟩
    exact ⟨w, listed, cut, same⟩

/-- Letters that are nowhere variants of each other spell a word as it is. -/
theorem eq_of_fold_eq {w t : List Char} (same : t.map fold = w.map fold)
    (apart : ∀ a ∈ w, ∀ c ∈ t, sameLetter a c → a = c) : t = w := by
  induction w generalizing t with
  | nil => simpa using same
  | cons a w ih =>
    cases t with
    | nil => simp at same
    | cons c t =>
      simp only [List.map_cons, List.cons.injEq] at same
      obtain ⟨first, others⟩ := same
      have equal : a = c := apart a (by simp) c (by simp) (by simp [sameLetter, first])
      rw [equal, ih others fun b hb d hd => apart b (by simp [hb]) d (by simp [hd])]

/-- A text is read as a whole when some way leaves nothing. -/
theorem all?_isSome_iff {c : Cut α} {s : List Char} :
    (c.all? s).isSome ↔ ∃ a, (a, []) ∈ c s := by
  simp [all?, List.find?_isSome]

theorem all?_eq_none_iff {c : Cut α} {s : List Char} :
    c.all? s = none ↔ ∀ a, (a, []) ∉ c s := by
  rw [← Option.not_isSome_iff_eq_none, all?_isSome_iff, not_exists]

theorem mem_of_all? {c : Cut α} {s : List Char} {a : α} (h : c.all? s = some a) :
    (a, []) ∈ c s := by
  simp only [all?, Option.map_eq_some_iff] at h
  obtain ⟨⟨b, rest⟩, found, rfl⟩ := h
  have empty : rest = [] := by simpa using List.find?_some found
  exact empty ▸ List.mem_of_find?_eq_some found

/-- A cut that goes forward leaves an end of the text. -/
def Forward (c : Cut α) : Prop := ∀ s a rest, (a, rest) ∈ c s → rest <:+ s

theorem mem_taken {c : Cut α} (forward : c.Forward) {t : List Char} {a : α} {s rest : List Char} :
    ((t, a), rest) ∈ c.taken s ↔ (a, rest) ∈ c s ∧ s = t ++ rest := by
  simp only [taken, List.mem_map, Prod.exists, Prod.mk.injEq]
  constructor
  · rintro ⟨_, _, h, ⟨rfl, rfl⟩, rfl⟩
    obtain ⟨u, rfl⟩ := forward _ _ _ h
    exact ⟨h, by simp⟩
  · rintro ⟨h, rfl⟩
    exact ⟨a, rest, h, by simp, rfl⟩

theorem mem_scanFrom {c : Cut α} {skip start : Nat} {s : List Char} {span : Span α}
    (h : span ∈ scanFrom c skip start s) : ∃ t rest, (span.value, rest) ∈ c t := by
  fun_induction scanFrom c skip start s with
  | case1 => simp at h
  | case2 skip start x rest ih => exact ih h
  | case3 start x rest none ih => exact ih h
  | case4 start x rest value left found length ih =>
    rcases List.mem_cons.1 h with rfl | later
    · exact ⟨x :: rest, left, List.mem_of_mem_head? found⟩
    · exact ih later

/-- A search finds only what the cut reads. -/
theorem mem_scan {c : Cut α} {s : List Char} {span : Span α} (h : span ∈ c.scan s) :
    ∃ t rest, (span.value, rest) ∈ c t :=
  mem_scanFrom h

end Cut

end DatePhrase.Text
