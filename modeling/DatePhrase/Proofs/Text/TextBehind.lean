import DatePhrase.Proofs.Text.Search

/-! The text behind what is cut off. A way of a basic cut depends on what it takes alone, and so do
the ways of composites; what stands behind may add ways that reach into it, but of those that do not
it changes neither the values nor the order. Main statements: the way that is preferred at a place
is the preferred one of the text that it takes, so a stretch that is found in a text is read as a
whole just as it was found. -/
namespace DatePhrase.Text.Cut
variable {α β : Type} {c d : Cut α}

/-- The way reaches no further than to the text that was put behind. -/
def leaves (back : List Char) (way : α × List Char) : Bool := back.length ≤ way.2.length

/-- The same way with a text behind what it leaves. -/
def before (back : List Char) (way : α × List Char) : α × List Char := (way.1, way.2 ++ back)

/-- Of the ways on a text those that leave its end are the ways on the text before it, in their
order. -/
structure Local (c : Cut α) : Prop where
  forward : c.Forward
  ways : ∀ s back, (c (s ++ back)).filter (leaves back) = (c s).map (before back)

/-- What is preferred before the end of a text is preferred without it. -/
theorem Local.prefers_of_append (hc : c.Local) {s back : List Char} {a : α}
    (first : c.Prefers (s ++ back) a back) : c.Prefers s a [] := by
  obtain ⟨others, ways⟩ := List.head?_eq_some_iff.1 first
  have kept := hc.ways s back
  rw [ways, List.filter_cons_of_pos (by simp [leaves])] at kept
  obtain ⟨way, more, own, same, -⟩ := List.map_eq_cons_iff.1 kept.symm
  obtain ⟨value, rest⟩ := way
  simp only [before, Prod.mk.injEq, List.append_left_eq_self] at same
  rw [Prefers, own, List.head?_cons, same.1, same.2]

theorem local_pure (a : α) : (pure a : Cut α).Local := by
  refine ⟨forward_pure a, fun s back => ?_⟩
  simp [pure, leaves, before]

theorem Local.or (hc : c.Local) (hd : d.Local) : (c.or d).Local := by
  refine ⟨hc.forward.or hd.forward, fun s back => ?_⟩
  rw [Cut.or, Cut.or, List.filter_append, List.map_append, hc.ways, hd.ways]

theorem flatMap_filter_of_nil {γ δ : Type} {p : γ → Bool} {f : γ → List δ} {l : List γ}
    (nothing : ∀ a ∈ l, p a = false → f a = []) : (l.filter p).flatMap f = l.flatMap f := by
  induction l with
  | nil => rfl
  | cons a l ih =>
    have rest := ih fun b hb => nothing b (List.mem_cons_of_mem a hb)
    cases kept : p a with
    | true => rw [List.filter_cons_of_pos kept, List.flatMap_cons, List.flatMap_cons, rest]
    | false =>
      rw [List.filter_cons_of_neg (by simp [kept]), List.flatMap_cons,
        nothing a List.mem_cons_self kept, List.nil_append, rest]

theorem filter_leaves_eq_nil {ways : List (α × List Char)} {back : List Char}
    (short : ∀ way ∈ ways, way.2.length < back.length) : ways.filter (leaves back) = [] := by
  rw [List.filter_eq_nil_iff]
  intro way listed
  have fewer := short way listed
  simp only [leaves, decide_eq_true_eq]
  omega

theorem Local.bind {f : α → Cut β} (hc : c.Local) (hf : ∀ a, (f a).Local) : (c >>= f).Local := by
  refine ⟨hc.forward.bind fun a => (hf a).forward, fun s back => ?_⟩
  -- a way that reaches into the end leads to none that leaves it
  have passed : ∀ way ∈ c (s ++ back), leaves back way = false →
      (f way.1 way.2).filter (leaves back) = [] := by
    intro way _ reaches
    refine filter_leaves_eq_nil fun later found => ?_
    have shorter := ((hf way.1).forward _ _ _ found).length_le
    simp only [leaves, decide_eq_false_iff_not] at reaches
    omega
  calc ((c (s ++ back)).flatMap fun way => f way.1 way.2).filter (leaves back)
    _ = (c (s ++ back)).flatMap fun way => (f way.1 way.2).filter (leaves back) :=
      List.filter_flatMap
    _ = ((c (s ++ back)).filter (leaves back)).flatMap fun way =>
        (f way.1 way.2).filter (leaves back) := (flatMap_filter_of_nil passed).symm
    _ = (c s).flatMap fun way => (f way.1 (way.2 ++ back)).filter (leaves back) := by
      rw [hc.ways, List.flatMap_map]
      rfl
    _ = (c s).flatMap fun way => (f way.1 way.2).map (before back) := by
      simp only [(hf _).ways]
    _ = ((c s).flatMap fun way => f way.1 way.2).map (before back) := List.map_flatMap.symm

theorem Local.optional (hc : c.Local) : c.optional.Local :=
  .or (.bind hc fun _ => local_pure _) (local_pure _)

section Classes
variable (p : Char → Bool)

theorem local_char : (char p).Local := by
  refine ⟨forward_char p, fun s back => ?_⟩
  cases s with
  | nil => exact filter_leaves_eq_nil fun way found => advances_char p _ _ _ found
  | cons x s => by_cases inside : p x <;> simp [char, inside, leaves, before]

/-- A character more is taken in the same ways. -/
theorem filter_map_cons (x : Char) (ways : List (List Char × List Char)) (back : List Char) :
    (ways.map fun (t, r) => (x :: t, r)).filter (leaves back) =
      (ways.filter (leaves back)).map fun (t, r) => (x :: t, r) :=
  List.filter_map

theorem local_upTo (n : Nat) : (upTo p n).Local := by
  refine ⟨forward_upTo p n, fun s back => ?_⟩
  induction n generalizing s with
  | zero => simp [upTo, leaves, before]
  | succ n ih =>
    cases s with
    | nil =>
      cases back with
      | nil => simp [upTo, leaves, before]
      | cons y back =>
        have reaching : ((upTo p n back).map fun (t, r) => (y :: t, r)).filter
            (leaves (y :: back)) = [] := by
          refine filter_leaves_eq_nil fun way found => ?_
          obtain ⟨way, shorter, rfl⟩ := List.mem_map.1 found
          have within := (forward_upTo p n _ _ _ shorter).length_le
          simpa using Nat.lt_succ_of_le within
        by_cases inside : p y
        · simp only [List.nil_append, upTo, inside, if_true, List.filter_append, reaching]
          simp [leaves, before]
        · simp [upTo, inside, leaves, before]
    | cons x s =>
      by_cases inside : p x
      · simp only [List.cons_append, upTo, inside, if_true, List.filter_append, filter_map_cons,
          ih, List.map_append, List.map_map]
        simp [leaves, before, Function.comp_def]
        omega
      · simp [upTo, inside, leaves, before]
        omega

/-- No more characters are taken than there are. -/
theorem upTo_eq_many {n : Nat} {s : List Char} (long : s.length ≤ n) : upTo p n s = many p s := by
  rw [many]
  induction s generalizing n with
  | nil => cases n <;> rfl
  | cons x s ih =>
    cases n with
    | zero => simp at long
    | succ n => simp only [List.length_cons, upTo, ih (Nat.le_of_succ_le_succ long)]

theorem local_many : (many p).Local := by
  refine ⟨forward_many p, fun s back => ?_⟩
  have more : s.length ≤ (s ++ back).length := by simp
  rw [← upTo_eq_many p (Nat.le_refl (s ++ back).length), (local_upTo p _).ways,
    upTo_eq_many p more]

theorem local_oneTo (n : Nat) : (oneTo n p).Local := by
  cases n with
  | zero => exact ⟨forward_oneTo 0 p, fun _ _ => rfl⟩
  | succ n => exact .bind (local_char p) fun _ => .bind (local_upTo p n) fun _ => local_pure _

theorem local_exactly (n : Nat) : (exactly p n).Local := by
  induction n with
  | zero => exact local_pure []
  | succ n ih => exact .bind (local_char p) fun _ => .bind ih fun _ => local_pure _

end Classes

theorem ways_letters (w s back : List Char) :
    (letters w (s ++ back)).filter (leaves back) = (letters w s).map (before back) := by
  induction w generalizing s with
  | nil => simp [letters, leaves, before]
  | cons a w ih =>
    cases s with
    | nil =>
      refine filter_leaves_eq_nil fun way found => ?_
      obtain ⟨parts, same⟩ := mem_letters.1 found
      have taken := congrArg List.length same
      have total := congrArg List.length parts
      simp only [List.length_map, List.length_cons, List.length_append, List.nil_append] at *
      omega
    | cons x s =>
      by_cases same : sameLetter a x
      · simp only [List.cons_append, letters, same, if_true, filter_map_cons, ih, List.map_map]
        rfl
      · simp [letters, same]

theorem local_oneOf (words : List String) : (oneOf words).Local := by
  refine ⟨forward_oneOf words, fun s back => ?_⟩
  simp only [oneOf, word, List.filter_flatMap, ways_letters, List.map_flatMap]

end DatePhrase.Text.Cut
