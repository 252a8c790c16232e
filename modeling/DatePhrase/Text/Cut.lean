import DatePhrase.Text.Blank
import DatePhrase.Text.Fold

/-! Ways to cut a value off the front of a text. A `Cut` lists all of them, the preferred one
first, each with the text that is left; running one cut after another keeps the order, so the
first way of a composite is the first choice that leads to an end. Main statements: which
`(value, rest)` are among the ways of each basic cut. -/
namespace DatePhrase.Text

/-- The ways to read a value at the start of a text, in order of preference, with what is left. -/
def Cut (α : Type) := List Char → List (α × List Char)

namespace Cut
variable {α β : Type}

instance : Monad Cut where
  pure a := fun s => [(a, s)]
  bind c f := fun s => (c s).flatMap fun (a, rest) => f a rest

/-- No way at all. -/
def fail : Cut α := fun _ => []

/-- The ways of `first`, then those of `second`. -/
def or (first second : Cut α) : Cut α := fun s => first s ++ second s

/-- With the value if possible, else without. -/
def optional (c : Cut α) : Cut (Option α) := (some <$> c).or (pure none)

/-- One character of a class. -/
def char (p : Char → Bool) : Cut Char
  | c :: rest => if p c then [(c, rest)] else []
  | [] => []

/-- At most `n` characters of a class, as many as possible first. -/
def upTo (p : Char → Bool) : Nat → Cut (List Char)
  | 0, s => [([], s)]
  | _ + 1, [] => [([], [])]
  | n + 1, c :: rest =>
    if p c then (upTo p n rest).map (fun (t, r) => (c :: t, r)) ++ [([], c :: rest)]
    else [([], c :: rest)]

/-- Any number of characters of a class, as many as possible first. -/
def many (p : Char → Bool) : Cut (List Char) := fun s => upTo p s.length s

/-- From one to `n` characters of a class, as many as possible first. -/
def oneTo (n : Nat) (p : Char → Bool) : Cut (List Char) :=
  match n with
  | 0 => fail
  | n + 1 => do
    let c ← char p
    let more ← upTo p n
    return c :: more

/-- At least one character of a class, as many as possible first. -/
def atLeastOne (p : Char → Bool) : Cut (List Char) := do
  let c ← char p
  let more ← many p
  return c :: more

/-- Exactly `n` characters of a class. -/
def exactly (p : Char → Bool) : Nat → Cut (List Char)
  | 0 => pure []
  | n + 1 => do
    let c ← char p
    let more ← exactly p n
    return c :: more

/-- The given letters in any case, as they stand in the text. -/
def letters : List Char → Cut (List Char)
  | [], s => [([], s)]
  | _ :: _, [] => []
  | a :: word, c :: rest =>
    if sameLetter a c then (letters word rest).map fun (t, r) => (c :: t, r) else []

/-- A word in any case, as it stands in the text. -/
def word (w : String) : Cut (List Char) := letters w.toList

/-- One of some words, tried in their order. -/
def oneOf (words : List String) : Cut (List Char) := fun s => words.flatMap (word · s)

/-- The value together with the text it was read from. -/
def taken (c : Cut α) : Cut (List Char × α) := fun s =>
  (c s).map fun (a, rest) => ((s.take (s.length - rest.length), a), rest)

/-- The preferred way that leaves nothing. -/
def all? (c : Cut α) (s : List Char) : Option α :=
  ((c s).find? fun (_, rest) => rest.isEmpty).map (·.1)

theorem mem_pure {a b : α} {s rest : List Char} :
    (b, rest) ∈ (pure a : Cut α) s ↔ b = a ∧ rest = s := by
  simp [pure]

theorem mem_bind {c : Cut α} {f : α → Cut β} {b : β} {s rest : List Char} :
    (b, rest) ∈ (c >>= f) s ↔ ∃ a mid, (a, mid) ∈ c s ∧ (b, rest) ∈ f a mid := by
  simp [bind]

theorem mem_or {c d : Cut α} {a : α} {s rest : List Char} :
    (a, rest) ∈ c.or d s ↔ (a, rest) ∈ c s ∨ (a, rest) ∈ d s := by
  simp [or]

theorem mem_char {p : Char → Bool} {c : Char} {s rest : List Char} :
    (c, rest) ∈ char p s ↔ p c ∧ s = c :: rest := by
  cases s with
  | nil => simp [char]
  | cons d t => by_cases h : p d <;> simp [char, h] <;> grind

theorem mem_upTo {p : Char → Bool} {n : Nat} {t s rest : List Char} :
    (t, rest) ∈ upTo p n s ↔ s = t ++ rest ∧ t.length ≤ n ∧ ∀ c ∈ t, p c := by
  induction n generalizing s t with
  | zero => cases t <;> simp [upTo]; exact eq_comm
  | succ n ih =>
    cases s with
    | nil => cases t <;> simp [upTo]
    | cons d s =>
      cases t with
      | nil => by_cases h : p d <;> simp [upTo, h] <;> exact eq_comm
      | cons e t =>
        by_cases h : p d
        · simp only [upTo, h, if_true, List.mem_append, List.mem_map, Prod.mk.injEq,
            List.cons.injEq, List.mem_singleton, reduceCtorEq, false_and, or_false, Prod.exists]
          constructor
          · rintro ⟨u, r, hu, ⟨rfl, rfl⟩, rfl⟩
            obtain ⟨rfl, hl, hp⟩ := ih.1 hu
            simp_all
          · rintro ⟨hs, hl, hp⟩
            simp only [List.cons_append, List.cons.injEq] at hs
            exact ⟨t, rest, ih.2 ⟨hs.2, by simpa using hl, fun c hc => hp c (by simp [hc])⟩,
              ⟨hs.1, rfl⟩, rfl⟩
        · simp only [upTo, h]
          simp only [Bool.false_eq_true, if_false, List.mem_singleton, Prod.mk.injEq,
            reduceCtorEq, false_and, List.cons_append, List.cons.injEq, false_iff, not_and]
          rintro ⟨rfl, -⟩ - hp
          exact h (hp _ (by simp))

theorem mem_many {p : Char → Bool} {t s rest : List Char} :
    (t, rest) ∈ many p s ↔ s = t ++ rest ∧ ∀ c ∈ t, p c := by
  simp only [many, mem_upTo]
  constructor
  · rintro ⟨h, -, hp⟩; exact ⟨h, hp⟩
  · rintro ⟨rfl, hp⟩; exact ⟨rfl, by simp, hp⟩

theorem mem_letters {w t s rest : List Char} :
    (t, rest) ∈ letters w s ↔ s = t ++ rest ∧ t.map fold = w.map fold := by
  induction w generalizing s t with
  | nil => cases t <;> simp [letters]; exact eq_comm
  | cons a w ih =>
    cases s with
    | nil => cases t <;> simp [letters]
    | cons c s =>
      cases t with
      | nil => by_cases h : sameLetter a c <;> simp [letters, h]
      | cons e t =>
        by_cases h : sameLetter a c
        · simp only [letters, h, if_true, List.mem_map, Prod.mk.injEq, List.cons.injEq,
            Prod.exists, List.cons_append, List.map_cons]
          constructor
          · rintro ⟨u, r, hu, ⟨rfl, rfl⟩, rfl⟩
            obtain ⟨rfl, hf⟩ := ih.1 hu
            exact ⟨⟨rfl, rfl⟩, (beq_iff_eq.1 h).symm, hf⟩
          · rintro ⟨⟨rfl, hs⟩, -, hf⟩
            exact ⟨t, rest, ih.2 ⟨hs, hf⟩, ⟨rfl, rfl⟩, rfl⟩
        · simp only [letters, h]
          simp only [sameLetter, beq_iff_eq] at h
          simp only [Bool.false_eq_true, if_false, List.not_mem_nil, List.cons_append,
            List.cons.injEq, List.map_cons, false_iff, not_and]
          rintro ⟨rfl, -⟩ hf
          exact absurd hf.symm h

theorem mem_oneOf {words : List String} {t s rest : List Char} :
    (t, rest) ∈ oneOf words s ↔ ∃ w ∈ words, (t, rest) ∈ word w s := by
  simp [oneOf]

end Cut

/-- A stretch of a text, by the number of characters before it, with a value read from it. -/
structure Span (α : Type) where
  start : Nat
  text : List Char
  value : α
  deriving DecidableEq

namespace Span

def stop {α : Type} (s : Span α) : Nat := s.start + s.text.length

end Span

namespace Cut
variable {α : Type}

/-- Leftmost stretches that do not overlap: the search goes on behind each one found. The first
number counts the characters of the last stretch still to pass, the second those passed. -/
def scanFrom (c : Cut α) : Nat → Nat → List Char → List (Span α)
  | _, _, [] => []
  | skip + 1, start, _ :: rest => scanFrom c skip (start + 1) rest
  | 0, start, x :: rest =>
    match (c (x :: rest)).head? with
    | none => scanFrom c 0 (start + 1) rest
    | some (value, left) =>
      let length := rest.length + 1 - left.length
      ⟨start, (x :: rest).take length, value⟩ :: scanFrom c (length - 1) (start + 1) rest

/-- All stretches that a search from left to right finds. -/
def scan (c : Cut α) (s : List Char) : List (Span α) := scanFrom c 0 0 s

end Cut

end DatePhrase.Text
