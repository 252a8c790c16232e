import DatePhrase.Proofs.Grammar.WholeSpan

/-! Which spans are kept. Spans are sorted by start and length, those in one place by the order of
their rules, since sorting is stable; then each span that starts behind the ones kept before it is
kept. Main statements: the kept spans do not overlap, each is the first of all spans behind the ones
before it, and every other span overlaps one of them. -/
namespace DatePhrase
open Text Calendar

section
variable {α : Type} {le : α → α → Bool} {R : α → α → Prop} {l : List α}

/-- Sorting leaves the elements that tie with a given one as they are. -/
theorem filter_mergeSort (trans : ∀ a b c, le a b → le b c → le a c)
    (total : ∀ a b, le a b || le b a) (l : List α) (a : α) :
    ((l.mergeSort le).filter fun b => le a b && le b a) = l.filter fun b => le a b && le b a := by
  have tied : (l.filter fun b => le a b && le b a).Pairwise fun b c => le b c := by
    rw [List.pairwise_filter]
    refine List.pairwise_of_forall fun b c hb hc => ?_
    rw [Bool.and_eq_true] at hb hc
    exact trans b a c hb.2 hc.1
  have kept : (l.filter fun b => le a b && le b a).Sublist
      ((l.mergeSort le).filter fun b => le a b && le b a) := by
    have inside := (List.sublist_mergeSort trans total tied List.filter_sublist).filter
      fun b => le a b && le b a
    simpa only [List.filter_filter, Bool.and_self] using inside
  exact (kept.eq_of_length ((List.mergeSort_perm l le).filter _).length_eq.symm).symm

/-- A stable order: sorted elements that tie stay in the order they were in. -/
theorem pairwise_mergeSort_stable (trans : ∀ a b c, le a b → le b c → le a c)
    (total : ∀ a b, le a b || le b a) (ordered : l.Pairwise R) :
    (l.mergeSort le).Pairwise fun a b => le a b ∧ (le b a → R a b) := by
  have sorted := List.pairwise_mergeSort trans total l
  rw [List.pairwise_iff_forall_sublist] at sorted ordered ⊢
  intro a b pair
  refine ⟨sorted pair, fun back => ordered ?_⟩
  have reflexive : le a a := by simpa using total a a
  have tie := pair.filter fun c => le a c && le c a
  rw [filter_mergeSort trans total] at tie
  have both : [a, b].filter (fun c => le a c && le c a) = [a, b] := by
    simp [reflexive, back, sorted pair]
  rw [both] at tie
  exact tie.trans List.filter_sublist

end

namespace Casual
variable {cursor : Nat} {spans : List (Span Stated)}

theorem le_start_of_mem_selectFrom {s : Span Stated} (kept : s ∈ selectFrom cursor spans) :
    cursor ≤ s.start := by
  induction spans generalizing cursor with
  | nil => cases kept
  | cons r spans ih =>
    rw [selectFrom] at kept
    split at kept
    · exact ih kept
    · rename_i behind
      rcases List.mem_cons.1 kept with rfl | later
      · exact Nat.le_of_not_lt behind
      · have stop := ih later
        simp only [Span.stop] at stop
        omega

/-- Each kept span ends before the next one starts. -/
theorem pairwise_selectFrom : (selectFrom cursor spans).Pairwise fun s r => s.stop ≤ r.start := by
  induction spans generalizing cursor with
  | nil => exact .nil
  | cons s spans ih =>
    rw [selectFrom]
    split
    · exact ih
    · exact List.pairwise_cons.2 ⟨fun r kept => le_start_of_mem_selectFrom kept, ih⟩

/-- A span behind the cursor is kept, or a kept span starts no later and reaches over its start. -/
theorem mem_or_covered (sorted : spans.Pairwise fun s r => s.start ≤ r.start) {r : Span Stated}
    (listed : r ∈ spans) (behind : cursor ≤ r.start) : r ∈ selectFrom cursor spans ∨
      ∃ s ∈ selectFrom cursor spans, s.start ≤ r.start ∧ r.start < s.stop := by
  induction spans generalizing cursor with
  | nil => cases listed
  | cons s spans ih =>
    obtain ⟨first, others⟩ := List.pairwise_cons.1 sorted
    rw [selectFrom]
    split
    · rename_i passed
      rcases List.mem_cons.1 listed with rfl | later
      · omega
      · exact ih others later behind
    · rcases List.mem_cons.1 listed with rfl | later
      · exact .inl List.mem_cons_self
      · by_cases reaches : r.start < s.stop
        · exact .inr ⟨s, List.mem_cons_self, first r later, reaches⟩
        · rcases ih others later (Nat.le_of_not_lt reaches) with kept | ⟨c, kept, covers⟩
          · exact .inl (List.mem_cons_of_mem s kept)
          · exact .inr ⟨c, List.mem_cons_of_mem s kept, covers⟩

/-- Of two spans with ranks the first comes first: it leads, and where the other leads as well it
has no higher rank. -/
def Precedes (a b : Nat × Span Stated) : Prop := leads a.2 b.2 ∧ (leads b.2 a.2 → a.1 ≤ b.1)

/-- A kept span comes first of all those behind the spans kept before it. -/
theorem precedes_of_selectFrom {ranked : List (Nat × Span Stated)}
    (sorted : ranked.Pairwise Precedes) (nonempty : ∀ b ∈ ranked, b.2.text ≠ [])
    {before after : List (Span Stated)} {s : Span Stated}
    (kept : selectFrom cursor (ranked.map (·.2)) = before ++ s :: after) :
    ∃ i, (i, s) ∈ ranked ∧ ∀ b ∈ ranked, cursor ≤ b.2.start →
      (∀ p ∈ before, p.stop ≤ b.2.start) → Precedes (i, s) b := by
  induction ranked generalizing cursor before with
  | nil => simp [selectFrom] at kept
  | cons a ranked ih =>
    obtain ⟨first, others⟩ := List.pairwise_cons.1 sorted
    have nonempty' : ∀ b ∈ ranked, b.2.text ≠ [] := fun b hb => nonempty b (by simp [hb])
    rw [List.map_cons, selectFrom] at kept
    split at kept
    · rename_i passed
      obtain ⟨i, listed, leading⟩ := ih others nonempty' kept
      refine ⟨i, List.mem_cons_of_mem a listed, fun b hb behind clear => ?_⟩
      rcases List.mem_cons.1 hb with rfl | later
      · omega
      · exact leading b later behind clear
    · cases before with
      | nil =>
        obtain ⟨rfl, -⟩ := List.cons.inj kept
        refine ⟨a.1, List.mem_cons_self, fun b hb _ _ => ?_⟩
        rcases List.mem_cons.1 hb with rfl | later
        · exact ⟨leads_iff.2 (.inr ⟨rfl, Nat.le_refl _⟩), fun _ => Nat.le_refl _⟩
        · exact first b later
      | cons p before =>
        rw [List.cons_append] at kept
        obtain ⟨rfl, rest⟩ := List.cons.inj kept
        obtain ⟨i, listed, leading⟩ := ih others nonempty' rest
        refine ⟨i, List.mem_cons_of_mem a listed, fun b hb _ clear => ?_⟩
        have behind : a.2.stop ≤ b.2.start := clear a.2 List.mem_cons_self
        rcases List.mem_cons.1 hb with rfl | later
        · have long := List.length_pos_iff.2 (nonempty b List.mem_cons_self)
          simp only [Span.stop] at behind
          omega
        · exact leading b later behind fun p hp => clear p (List.mem_cons_of_mem _ hp)

end Casual

end DatePhrase
