import DatePhrase.Proofs.Text.Preferred

/-! Where a search finds its stretches. All basic cuts go forward, and so do composites of cuts that
do; one that begins with a word or a digit advances by at least a character. A stretch that is found
stands in the text at its place, read in the way that the cut prefers there, and no place where the
cut has a way is passed over. A text that is read as a whole in the preferred way is the only stretch
found in it. -/
namespace DatePhrase.Text

/-- A stretch with another value. -/
def Span.map {α β : Type} (f : α → β) (s : Span α) : Span β := ⟨s.start, s.text, f s.value⟩

namespace Cut
variable {α β : Type} {c d : Cut α}

theorem forward_pure (a : α) : (pure a : Cut α).Forward := by
  intro s b rest h
  obtain ⟨-, rfl⟩ := mem_pure.1 h
  exact List.suffix_refl _

theorem Forward.bind {f : α → Cut β} (hc : c.Forward) (hf : ∀ a, (f a).Forward) :
    (c >>= f).Forward := by
  intro s b rest h
  obtain ⟨a, mid, first, later⟩ := mem_bind.1 h
  exact (hf a mid b rest later).trans (hc s a mid first)

theorem Forward.or (hc : c.Forward) (hd : d.Forward) : (c.or d).Forward := by
  intro s a rest h
  rcases mem_or.1 h with first | second
  · exact hc s a rest first
  · exact hd s a rest second

theorem Forward.optional (hc : c.Forward) : c.optional.Forward :=
  .or (.bind hc fun _ => forward_pure _) (forward_pure _)

theorem Forward.taken (hc : c.Forward) : c.taken.Forward := by
  rintro s ⟨t, a⟩ rest h
  exact hc s a rest ((mem_taken hc).1 h).1

theorem forward_char (p : Char → Bool) : (char p).Forward := by
  intro s x rest h
  obtain ⟨-, rfl⟩ := mem_char.1 h
  exact List.suffix_cons x rest

theorem forward_upTo (p : Char → Bool) (n : Nat) : (upTo p n).Forward := by
  intro s t rest h
  exact ⟨t, (mem_upTo.1 h).1.symm⟩

theorem forward_many (p : Char → Bool) : (many p).Forward := by
  intro s t rest h
  exact ⟨t, (mem_many.1 h).1.symm⟩

theorem forward_oneTo (n : Nat) (p : Char → Bool) : (oneTo n p).Forward := by
  cases n with
  | zero => exact nofun
  | succ n => exact .bind (forward_char p) fun _ => .bind (forward_upTo p n) fun _ => forward_pure _

theorem forward_atLeastOne (p : Char → Bool) : (atLeastOne p).Forward := by
  intro s t rest h
  exact ⟨t, (mem_atLeastOne.1 h).1.symm⟩

theorem forward_exactly (p : Char → Bool) (n : Nat) : (exactly p n).Forward := by
  induction n with
  | zero => exact forward_pure []
  | succ n ih => exact .bind (forward_char p) fun _ => .bind ih fun _ => forward_pure _

theorem forward_oneOf (words : List String) : (oneOf words).Forward := by
  intro s t rest h
  exact ⟨t, (mem_oneOf_iff.1 h).1.symm⟩

/-- A cut that advances takes at least one character. -/
def Advances (c : Cut α) : Prop := ∀ s a rest, (a, rest) ∈ c s → rest.length < s.length

/-- It is enough that the first cut takes a character. -/
theorem Advances.bind {f : α → Cut β} (hc : c.Advances) (hf : ∀ a, (f a).Forward) :
    (c >>= f).Advances := by
  intro s b rest h
  obtain ⟨a, mid, first, later⟩ := mem_bind.1 h
  exact Nat.lt_of_le_of_lt (hf a mid b rest later).length_le (hc s a mid first)

theorem Advances.or (hc : c.Advances) (hd : d.Advances) : (c.or d).Advances := by
  intro s a rest h
  rcases mem_or.1 h with first | second
  · exact hc s a rest first
  · exact hd s a rest second

theorem Advances.taken (hc : c.Advances) (forward : c.Forward) : c.taken.Advances := by
  rintro s ⟨t, a⟩ rest h
  exact hc s a rest ((mem_taken forward).1 h).1

theorem advances_char (p : Char → Bool) : (char p).Advances := by
  intro s x rest h
  obtain ⟨-, rfl⟩ := mem_char.1 h
  exact Nat.lt_succ_self _

theorem advances_oneTo (n : Nat) (p : Char → Bool) : (oneTo n p).Advances := by
  cases n with
  | zero => exact nofun
  | succ n =>
    exact .bind (advances_char p) fun _ => .bind (forward_upTo p n) fun _ => forward_pure _

theorem advances_exactly (n : Nat) (p : Char → Bool) : (exactly p (n + 1)).Advances :=
  .bind (advances_char p) fun _ => .bind (forward_exactly p n) fun _ => forward_pure _

theorem advances_oneOf {words : List String} (nonempty : ∀ w ∈ words, w ≠ "") :
    (oneOf words).Advances := by
  intro s t rest h
  obtain ⟨rfl, w, listed, same⟩ := mem_oneOf_iff.1 h
  have long : t ≠ [] := by
    rintro rfl
    exact nonempty w listed (String.toList_eq_nil_iff.1 (List.map_eq_nil_iff.1 same.symm))
  rw [List.length_append]
  exact Nat.lt_add_of_pos_left (List.length_pos_iff.2 long)

theorem exists_of_mem_scanFrom (forward : c.Forward) {skip start : Nat} {s : List Char}
    {span : Span α} (h : span ∈ scanFrom c skip start s) : ∃ before after,
      s = before ++ (span.text ++ after) ∧ start + before.length = span.start ∧
        before.length < s.length ∧ c.Prefers (span.text ++ after) span.value after := by
  fun_induction scanFrom c skip start s with
  | case1 => simp at h
  | case2 skip start x rest ih =>
    obtain ⟨before, after, rfl, place, short, read⟩ := ih h
    exact ⟨x :: before, after, rfl, by rw [List.length_cons]; omega,
      by simp only [List.length_cons]; omega, read⟩
  | case3 start x rest none ih =>
    obtain ⟨before, after, rfl, place, short, read⟩ := ih h
    exact ⟨x :: before, after, rfl, by rw [List.length_cons]; omega,
      by simp only [List.length_cons]; omega, read⟩
  | case4 start x rest value left found length ih =>
    rcases List.mem_cons.1 h with rfl | later
    · obtain ⟨t, parts⟩ := forward _ _ _ (List.mem_of_mem_head? found)
      have width := congrArg List.length parts
      simp only [List.length_append, List.length_cons] at width
      have cut : (x :: rest).take length = t := by
        rw [← parts]
        exact List.take_left' (by simp only [length]; omega)
      refine ⟨[], left, ?_, rfl, by simp, ?_⟩
      · rw [cut, parts, List.nil_append]
      · rw [cut, parts]
        exact found
    · obtain ⟨before, after, rfl, place, short, read⟩ := ih later
      exact ⟨x :: before, after, rfl, by rw [List.length_cons]; omega,
        by simp only [List.length_cons]; omega, read⟩

/-- A stretch stands in the text, with as many characters before it as its start says, and the cut
prefers it there. -/
theorem prefers_of_mem_scan (forward : c.Forward) {s : List Char} {span : Span α}
    (h : span ∈ c.scan s) : ∃ before after, s = before ++ (span.text ++ after) ∧
      before.length = span.start ∧ span.start < s.length ∧
        c.Prefers (span.text ++ after) span.value after := by
  obtain ⟨before, after, parts, place, short, read⟩ := exists_of_mem_scanFrom forward h
  rw [Nat.zero_add] at place
  exact ⟨before, after, parts, place, place ▸ short, read⟩

theorem exists_of_mem_scan (forward : c.Forward) {s : List Char} {span : Span α}
    (h : span ∈ c.scan s) : ∃ before after, s = before ++ (span.text ++ after) ∧
      before.length = span.start ∧ span.start < s.length ∧
        (span.value, after) ∈ c (span.text ++ after) := by
  obtain ⟨before, after, parts, place, short, read⟩ := prefers_of_mem_scan forward h
  exact ⟨before, after, parts, place, short, List.mem_of_mem_head? read⟩

/-- The search passes over no place where the cut has a way: a stretch that starts there or before
reaches over it. -/
theorem exists_covering_of_scanFrom (advances : c.Advances) {skip start i : Nat} {s : List Char}
    (behind : skip ≤ i) (way : c (s.drop i) ≠ []) (inside : i < s.length) :
    ∃ span ∈ scanFrom c skip start s, span.start ≤ start + i ∧ start + i < span.stop := by
  fun_induction scanFrom c skip start s generalizing i with
  | case1 => simp at inside
  | case2 skip start x rest ih =>
    obtain ⟨k, rfl⟩ : ∃ k, i = k + 1 := ⟨i - 1, by omega⟩
    obtain ⟨span, found, starts, reaches⟩ := ih (by omega) way (by simpa using inside)
    exact ⟨span, found, by omega, by omega⟩
  | case3 start x rest none ih =>
    cases i with
    | zero => exact absurd (List.head?_eq_none_iff.1 none) way
    | succ k =>
      obtain ⟨span, found, starts, reaches⟩ := ih (Nat.zero_le k) way (by simpa using inside)
      exact ⟨span, found, by omega, by omega⟩
  | case4 start x rest value left found length =>
    rename_i ih
    have short := advances _ _ _ (List.mem_of_mem_head? found)
    rw [List.length_cons] at short
    by_cases here : i < rest.length + 1 - left.length
    · refine ⟨_, List.mem_cons_self, Nat.le_add_right start i, ?_⟩
      rw [Span.stop, List.length_take_of_le (by rw [List.length_cons]; omega)]
      exact Nat.add_lt_add_left here start
    · obtain ⟨k, rfl⟩ : ∃ k, i = k + 1 := ⟨i - 1, by omega⟩
      obtain ⟨span, member, starts, reaches⟩ := ih (by omega) way (by simpa using inside)
      exact ⟨span, List.mem_cons_of_mem _ member, by omega, by omega⟩

theorem exists_covering_of_scan (advances : c.Advances) {before rest : List Char}
    (way : c rest ≠ []) (nonempty : rest ≠ []) : ∃ span ∈ c.scan (before ++ rest),
      span.start ≤ before.length ∧ before.length < span.stop := by
  have long := List.length_pos_iff.2 nonempty
  obtain ⟨span, found, starts, reaches⟩ : ∃ span ∈ c.scanFrom 0 0 (before ++ rest),
      span.start ≤ 0 + before.length ∧ 0 + before.length < span.stop :=
    exists_covering_of_scanFrom advances (Nat.zero_le _) (by rwa [List.drop_left])
      (by rw [List.length_append]; omega)
  exact ⟨span, found, by omega, by omega⟩

/-- The search for a cut that prefers to read all of a text finds nothing else in it. -/
theorem Prefers.scan {s : List Char} {a : α} (h : c.Prefers s a []) (nonempty : s ≠ []) :
    c.scan s = [⟨0, s, a⟩] := by
  obtain ⟨x, rest, rfl⟩ := List.exists_cons_of_ne_nil nonempty
  have passed : ∀ (start : Nat) (rest : List Char), scanFrom c rest.length start rest = [] := by
    intro start rest
    induction rest generalizing start with
    | nil => rfl
    | cons y rest ih => exact ih (start + 1)
  simp only [Prefers] at h
  simp only [Cut.scan, scanFrom, h, List.length_nil, Nat.sub_zero, Nat.add_sub_cancel, passed]
  rw [← List.length_cons (a := x), List.take_length]

/-- A search finds the same stretches whatever is made of them. -/
theorem scan_map (f : α → β) (c : Cut α) (s : List Char) :
    (f <$> c).scan s = (c.scan s).map (Span.map f) := by
  have each : ∀ skip start (s : List Char),
      (f <$> c).scanFrom skip start s = (c.scanFrom skip start s).map (Span.map f) := by
    intro skip start s
    fun_induction scanFrom c skip start s with
    | case1 => simp only [scanFrom, List.map_nil]
    | case2 skip start x rest ih => simpa only [scanFrom] using ih
    | case3 start x rest none ih =>
      simpa only [scanFrom, map_eq, none, List.head?_map, Option.map_none] using ih
    | case4 start x rest value left found length ih =>
      simp only [scanFrom, map_eq, found, List.head?_map, Option.map_some, List.map_cons, Span.map,
        ← ih]
      rfl
  exact each 0 0 s

end Cut

end DatePhrase.Text
