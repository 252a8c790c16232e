import Mathlib.Data.List.Basic

/-! Lists without their repetitions. Main statements: such a list has every element once, in the
order of first occurrence, and a repeated element makes no difference to it. -/
namespace DatePhrase
variable {α : Type} [DecidableEq α] {l : List α} {x y : α}

/-- Of two kept elements the one that comes first among the kept comes first of all. -/
theorem idxOf_lt_of_filter {p : α → Bool} (keepsX : p x) (keepsY : p y)
    (before : (l.filter p).idxOf x < (l.filter p).idxOf y) : l.idxOf x < l.idxOf y := by
  induction l with
  | nil => simp at before
  | cons a l ih =>
    by_cases keeps : p a
    · rw [List.filter_cons_of_pos keeps] at before
      by_cases first : a = x
      · subst first
        by_cases second : a = y
        · subst second
          simp at before
        · simp [List.idxOf_cons_ne _ second]
      · by_cases second : a = y
        · subst second
          simp at before
        · rw [List.idxOf_cons_ne _ first, List.idxOf_cons_ne _ second] at before ⊢
          exact Nat.succ_lt_succ (ih (Nat.lt_of_succ_lt_succ before))
    · rw [List.filter_cons_of_neg keeps] at before
      have first : a ≠ x := fun same => keeps (same ▸ keepsX)
      have second : a ≠ y := fun same => keeps (same ▸ keepsY)
      rw [List.idxOf_cons_ne _ first, List.idxOf_cons_ne _ second]
      exact Nat.succ_lt_succ (ih before)

/-- Without its repetitions a list keeps the order of first occurrence. -/
theorem pairwise_idxOf_eraseDups :
    ∀ l : List α, l.eraseDups.Pairwise fun x y => l.idxOf x < l.idxOf y
  | [] => .nil
  | a :: l => by
    have others := pairwise_idxOf_eraseDups (l.filter fun b => !b == a)
    have later : ∀ b ∈ (l.filter fun b => !b == a).eraseDups, a ≠ b := fun b listed same => by
      simpa [same] using (List.mem_filter.1 (List.mem_eraseDups.1 listed)).2
    rw [List.eraseDups_cons, List.pairwise_cons]
    refine ⟨fun b hb => ?_, others.imp_of_mem fun {b c} hb hc before => ?_⟩
    · rw [List.idxOf_cons_self, List.idxOf_cons_ne _ (later b hb)]
      exact Nat.succ_pos _
    · rw [List.idxOf_cons_ne _ (later b hb), List.idxOf_cons_ne _ (later c hc)]
      exact Nat.succ_lt_succ (idxOf_lt_of_filter (by simpa using (later b hb).symm)
        (by simpa using (later c hc).symm) before)
  termination_by l => l.length
  decreasing_by exact Nat.lt_succ_of_le (List.length_filter_le _ _)

theorem nodup_eraseDups (l : List α) : l.eraseDups.Nodup := by
  refine (pairwise_idxOf_eraseDups l).imp fun {b c} before same => ?_
  rw [same] at before
  exact Nat.lt_irrefl _ before

/-- An element that stands before makes no difference once repetitions are gone. -/
theorem eraseDups_append_cons {before after : List α} (repeated : x ∈ before) :
    (before ++ x :: after).eraseDups = (before ++ after).eraseDups := by
  rw [List.eraseDups_append, List.eraseDups_append]
  simp [List.removeAll, repeated]

end DatePhrase
