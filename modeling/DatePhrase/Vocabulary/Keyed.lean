/-! Maps from texts, with their entries in ascending order of the keys. Main statements: `put`
changes one key and no other, and maps that answer alike under every key are the same map. -/
namespace DatePhrase

/-- Entries in ascending order of their keys, each key once. -/
structure Keyed (α : Type) where
  entries : List (String × α)
  ascending : entries.Pairwise fun a b => a.1 < b.1
  deriving DecidableEq

namespace Keyed
variable {α : Type}

def empty : Keyed α := ⟨[], .nil⟩

/-- The value of the first entry with a key. -/
def find? (sought : String) : List (String × α) → Option α
  | [] => none
  | (key, value) :: rest => if key = sought then some value else find? sought rest

/-- Sets the entry of a key, in the place that its key has. -/
def place (key : String) (value : α) : List (String × α) → List (String × α)
  | [] => [(key, value)]
  | entry :: rest =>
    if key = entry.1 then (key, value) :: rest
    else if key < entry.1 then (key, value) :: entry :: rest
    else entry :: place key value rest

theorem mem_place {key : String} {value : α} {entry : String × α} {entries : List (String × α)}
    (h : entry ∈ place key value entries) : entry = (key, value) ∨ entry ∈ entries := by
  fun_induction place key value entries <;> grind

theorem pairwise_place (key : String) (value : α) {entries : List (String × α)}
    (h : entries.Pairwise fun a b => a.1 < b.1) :
    (place key value entries).Pairwise fun a b => a.1 < b.1 := by
  induction entries with
  | nil => simp [place]
  | cons entry rest ih =>
    obtain ⟨first, later⟩ := List.pairwise_cons.1 h
    unfold place
    split
    · subst key
      exact List.pairwise_cons.2 ⟨first, later⟩
    · split
      · rename_i before
        refine List.pairwise_cons.2 ⟨fun other hother => ?_, h⟩
        rcases List.mem_cons.1 hother with rfl | hrest
        · exact before
        · exact String.lt_trans before (first other hrest)
      · rename_i distinct notBefore
        refine List.pairwise_cons.2 ⟨fun other hother => ?_, ih later⟩
        rcases mem_place hother with rfl | hrest
        · exact Std.lt_of_le_of_ne (String.not_lt.1 notBefore) (Ne.symm distinct)
        · exact first other hrest

theorem find?_place (key sought : String) (value : α) (entries : List (String × α)) :
    find? sought (place key value entries) =
      if sought = key then some value else find? sought entries := by
  fun_induction place key value entries <;> grind [find?]

/-- The value of a key. -/
def get? (m : Keyed α) (key : String) : Option α := find? key m.entries

def put (m : Keyed α) (key : String) (value : α) : Keyed α :=
  ⟨place key value m.entries, pairwise_place key value m.ascending⟩

/-- Sets all entries of `other`. -/
def extend (m other : Keyed α) : Keyed α :=
  other.entries.foldl (fun m entry => m.put entry.1 entry.2) m

theorem get?_put (m : Keyed α) (key sought : String) (value : α) :
    (m.put key value).get? sought = if sought = key then some value else m.get? sought :=
  find?_place key sought value m.entries

theorem find?_eq_none {sought : String} {entries : List (String × α)}
    (h : ∀ entry ∈ entries, sought < entry.1) : find? sought entries = none := by
  induction entries with
  | nil => rfl
  | cons entry rest ih =>
    have later := h entry (by simp)
    rw [find?, if_neg fun same => String.lt_irrefl _ (same ▸ later)]
    exact ih fun other hother => h other (List.mem_cons_of_mem _ hother)

theorem entries_eq {a b : List (String × α)} (ha : a.Pairwise fun x y => x.1 < y.1)
    (hb : b.Pairwise fun x y => x.1 < y.1) (h : ∀ key, find? key a = find? key b) : a = b := by
  induction a generalizing b with
  | nil =>
    cases b with
    | nil => rfl
    | cons y ys => simpa [find?] using h y.1
  | cons x xs ih =>
    obtain ⟨firstX, laterX⟩ := List.pairwise_cons.1 ha
    cases b with
    | nil => simpa [find?] using h x.1
    | cons y ys =>
      obtain ⟨firstY, laterY⟩ := List.pairwise_cons.1 hb
      have key : x.1 = y.1 := by
        rcases Std.lt_trichotomy x.1 y.1 with before | same | behind
        · have absent : find? x.1 (y :: ys) = none := find?_eq_none fun other hother => by
            rcases List.mem_cons.1 hother with rfl | hrest
            · exact before
            · exact String.lt_trans before (firstY other hrest)
          have found := (h x.1).trans absent
          simp [find?] at found
        · exact same
        · have absent : find? y.1 (x :: xs) = none := find?_eq_none fun other hother => by
            rcases List.mem_cons.1 hother with rfl | hrest
            · exact behind
            · exact String.lt_trans behind (firstX other hrest)
          have found := (h y.1).symm.trans absent
          simp [find?] at found
      have value : x.2 = y.2 := by simpa [find?, key] using h x.1
      have tails : xs = ys := ih laterX laterY fun sought => by
        by_cases same : x.1 = sought
        · rw [find?_eq_none fun other hother => same ▸ firstX other hother,
            find?_eq_none fun other hother => (key.symm.trans same) ▸ firstY other hother]
        · simpa [find?, same, key ▸ same] using h sought
      rw [Prod.ext key value, tails]

/-- A map is what it answers. -/
@[ext] theorem ext {m n : Keyed α} (h : ∀ key, m.get? key = n.get? key) : m = n := by
  cases m; cases n
  simp only [mk.injEq]
  exact entries_eq ‹_› ‹_› h

end Keyed

end DatePhrase
