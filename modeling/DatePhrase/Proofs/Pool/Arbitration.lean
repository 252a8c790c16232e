import DatePhrase.Proofs.Pool.Votes

/-! Which match a pool of arbitrary grammars elects: the first of the longest. A grammar that fails
or finds nothing could as well be absent, and the order of the grammars decides nothing but ties.
Main statement: all of this for every pool, text and options, for the best match and for the instant
that the pool names. -/
namespace DatePhrase
open Calendar

namespace Pool

/-- No match of the list is longer. -/
def Unbeaten (m : Match) (ms : List Match) : Prop := ∀ n ∈ ms, n.length ≤ m.length

theorem unbeaten_of_parts {m : Match} {before behind : List Match}
    (shorter : ∀ n ∈ before, n.length < m.length) (unbeaten : Unbeaten m behind) :
    Unbeaten m (before ++ m :: behind) := by
  intro n hn
  rcases List.mem_append.1 hn with hn | hn
  · exact Nat.le_of_lt (shorter n hn)
  · rcases List.mem_cons.1 hn with rfl | hn
    · exact Nat.le_refl _
    · exact unbeaten n hn

theorem longest?_eq_none_iff {ms : List Match} : longest? ms = none ↔ ms = [] := by
  cases ms with
  | nil => simp [longest?]
  | cons m rest => grind [longest?]

theorem longest?_cons_of_unbeaten {m : Match} {rest : List Match} (unbeaten : Unbeaten m rest)
    (chosen : ∀ n, longest? rest = some n → n ∈ rest) : longest? (m :: rest) = some m := by
  cases later : longest? rest with
  | none => simp [longest?, later]
  | some n =>
    have shorter : ¬ m.length < n.length := Nat.not_lt.2 (unbeaten n (chosen n later))
    simp [longest?, later, shorter]

theorem mem_of_longest? {m : Match} {ms : List Match} (longest : longest? ms = some m) :
    m ∈ ms := by
  induction ms with
  | nil => cases longest
  | cons n rest ih => grind [longest?]

/-- A match counts if those before it are shorter and those behind it are not longer. -/
theorem longest?_eq_some_iff {m : Match} {ms : List Match} :
    longest? ms = some m ↔ ∃ before behind, ms = before ++ m :: behind ∧
      (∀ n ∈ before, n.length < m.length) ∧ Unbeaten m behind := by
  constructor
  · intro longest
    induction ms generalizing m with
    | nil => cases longest
    | cons n rest ih =>
      cases later : longest? rest with
      | none =>
        obtain rfl := longest?_eq_none_iff.1 later
        obtain rfl : n = m := by simpa [longest?] using longest
        exact ⟨[], [], rfl, by simp, by simp [Unbeaten]⟩
      | some k =>
        obtain ⟨before, behind, rfl, shorter, unbeaten⟩ := ih later
        by_cases less : n.length < k.length
        · obtain rfl : k = m := by simpa [longest?, later, less] using longest
          exact ⟨n :: before, behind, rfl, by simpa [less] using shorter, unbeaten⟩
        · obtain rfl : n = m := by simpa [longest?, later, less] using longest
          refine ⟨[], _, rfl, by simp, fun j hj => ?_⟩
          have atMost := unbeaten_of_parts shorter unbeaten j hj
          omega
  · rintro ⟨before, behind, rfl, shorter, unbeaten⟩
    induction before with
    | nil => exact longest?_cons_of_unbeaten unbeaten fun n => mem_of_longest?
    | cons n before ih =>
      have less : n.length < m.length := shorter n (by simp)
      have rest := ih fun k hk => shorter k (by simp [hk])
      simp [longest?, rest, less]

theorem unbeaten_of_longest? {m : Match} {ms : List Match} (longest : longest? ms = some m) :
    Unbeaten m ms := by
  obtain ⟨before, behind, rfl, shorter, unbeaten⟩ := longest?_eq_some_iff.1 longest
  exact unbeaten_of_parts shorter unbeaten

/-- At most one match of the list is not beaten. -/
def HasOneLongest (ms : List Match) : Prop :=
  ∀ m ∈ ms, ∀ n ∈ ms, Unbeaten m ms → Unbeaten n ms → m = n

/-- Only ties depend on the order. -/
theorem longest?_of_perm {ms ns : List Match} (same : ms.Perm ns) (one : HasOneLongest ms) :
    longest? ms = longest? ns := by
  cases first : longest? ms with
  | none =>
    obtain rfl := longest?_eq_none_iff.1 first
    rw [List.nil_perm.1 same]
    rfl
  | some m =>
    cases second : longest? ns with
    | none =>
      obtain rfl := longest?_eq_none_iff.1 second
      rw [List.perm_nil.1 same] at first
      cases first
    | some n =>
      congr 1
      apply one m (mem_of_longest? first) n (same.mem_iff.2 (mem_of_longest? second))
        (unbeaten_of_longest? first)
      intro k hk
      exact unbeaten_of_longest? second k (same.mem_iff.1 hk)

end Pool

/-- A grammar that has no vote on a text: it finds nothing there or fails. -/
def Grammar.Silent (text : String) (o : Options) (g : Grammar) : Prop :=
  g.read text o = .ok [] ∨ ∃ message, g.read text o = .error (.failed message)

namespace Grammar
variable {g : Grammar} {text : String} {o : Options}

theorem silent_iff : g.Silent text o ↔ (g.vote text o).outcome = .ok none := by
  unfold Silent vote
  split
  · rename_i found reads
    simp [reads]
  · rename_i message fails
    rw [fails]
    exact ⟨fun _ => rfl, fun _ => .inr ⟨message, rfl⟩⟩
  · rename_i leaves
    simp [leaves]

theorem outcome_vote_of_leaves (leaves : g.read text o = .error .outOfCalendar) :
    (g.vote text o).outcome = .error .outOfCalendar := by
  simp [vote, leaves]

end Grammar

namespace Pool
variable {p q : Pool} {g : Grammar} {text : String} {o : Options}

theorem outcome_votes_cons : (votes (g :: p) text o).outcome = do
    let vote ← (g.vote text o).outcome
    let votes ← (p.votes text o).outcome
    return vote.toList ++ votes := by
  simp only [votes, List.mapM_cons, Answer.outcome_bind, Answer.outcome_pure]
  cases (g.vote text o).outcome with
  | error e => rfl
  | ok vote =>
    cases (p.mapM fun h : Grammar => h.vote text o).outcome with
    | error e => rfl
    | ok votes => cases vote <;> rfl

/-- A pool that leaves the calendar over a text has no votes there. -/
theorem outcome_votes_of_leaves (leaves : ¬ p.Stays text o) :
    (p.votes text o).outcome = .error .outOfCalendar := by
  induction p with
  | nil => exact absurd (by simp [Stays]) leaves
  | cons g p ih =>
    rw [outcome_votes_cons]
    by_cases here : g.read text o = .error .outOfCalendar
    · rw [Grammar.outcome_vote_of_leaves here]
      rfl
    · have later : ¬ Stays p text o := fun stays => leaves (List.forall_mem_cons.2 ⟨here, stays⟩)
      rw [Grammar.outcome_vote here, ih later]
      rfl

theorem outcome_best_eq_ok_iff {vote : Option Match} :
    (p.best text o).outcome = .ok vote ↔
      p.Stays text o ∧ longest? (p.firsts text o) = vote := by
  by_cases stays : p.Stays text o
  · simp [outcome_best stays, stays]
  · simp [best, outcome_votes_of_leaves stays, stays, bind]

theorem firsts_eq_nil_of_silent (silent : ∀ g ∈ p, g.Silent text o) :
    p.Stays text o ∧ p.firsts text o = [] := by
  constructor
  · intro g hg leaves
    rcases silent g hg with reads | ⟨message, fails⟩
    · rw [reads] at leaves
      cases leaves
    · rw [fails] at leaves
      cases leaves
  · rw [firsts, List.filterMap_eq_nil_iff]
    intro g hg
    rcases silent g hg with reads | ⟨message, fails⟩
    · simp [Grammar.first?, reads]
    · simp [Grammar.first?, fails]

theorem silent_of_firsts_eq_nil (stays : p.Stays text o) (none : p.firsts text o = []) :
    ∀ g ∈ p, g.Silent text o := by
  intro g hg
  rw [Grammar.silent_iff, Grammar.outcome_vote (stays g hg)]
  exact congrArg Except.ok (List.filterMap_eq_nil_iff.1 none g hg)

/-- The pool elects the first match of one of its grammars: those of the grammars before it are
shorter, those of the grammars behind it are not longer. -/
def Elects (p : Pool) (text : String) (o : Options) (m : Match) : Prop :=
  ∃ before g behind, p = before ++ g :: behind ∧ g.first? text o = some m ∧
    (∀ n ∈ firsts before text o, n.length < m.length) ∧
      ∀ n ∈ firsts behind text o, n.length ≤ m.length

theorem elects_iff {m : Match} : p.Elects text o m ↔ longest? (p.firsts text o) = some m := by
  rw [longest?_eq_some_iff]
  constructor
  · rintro ⟨before, g, behind, rfl, first, shorter, unbeaten⟩
    refine ⟨firsts before text o, firsts behind text o, ?_, shorter, unbeaten⟩
    simp [firsts, first]
  · rintro ⟨before, behind, parts, shorter, unbeaten⟩
    obtain ⟨p₁, p₂, rfl, rfl, second⟩ := List.filterMap_eq_append_iff.1 parts
    obtain ⟨passed, g, p₃, rfl, silent, first, rfl⟩ := List.filterMap_eq_cons_iff.1 second
    refine ⟨p₁ ++ passed, g, p₃, by simp, first, ?_, unbeaten⟩
    have none : firsts passed text o = [] := List.filterMap_eq_nil_iff.2 silent
    have parted : firsts (p₁ ++ passed) text o = firsts p₁ text o ++ firsts passed text o :=
      List.filterMap_append
    rw [parted, none, List.append_nil]
    exact shorter

/-- A pool and what is left of it when some grammars with a property are deleted. -/
inductive Without (deleted : Grammar → Prop) : Pool → Pool → Prop
  | nil : Without deleted [] []
  | keep {p q : Pool} (g : Grammar) : Without deleted p q → Without deleted (g :: p) (g :: q)
  | delete {p q : Pool} {g : Grammar} :
      deleted g → Without deleted p q → Without deleted (g :: p) q

theorem Without.imp {one other : Grammar → Prop} (imp : ∀ g, one g → other g)
    (rest : p.Without one q) : p.Without other q := by
  induction rest with
  | nil => exact .nil
  | keep g _ ih => exact .keep g ih
  | delete gone _ ih => exact .delete (imp _ gone) ih

/-- Silent grammars add nothing to the votes, not even a fault. -/
theorem outcome_votes_of_without (rest : p.Without (Grammar.Silent text o) q) :
    (p.votes text o).outcome = (q.votes text o).outcome := by
  induction rest with
  | nil => rfl
  | keep g _ ih => rw [outcome_votes_cons, outcome_votes_cons, ih]
  | @delete p q g gone _ ih =>
    rw [outcome_votes_cons, Grammar.silent_iff.1 gone, ih]
    cases (q.votes text o).outcome <;> rfl

theorem outcome_best_of_without (rest : p.Without (Grammar.Silent text o) q) :
    (p.best text o).outcome = (q.best text o).outcome := by
  simp only [best, Answer.outcome_bind, outcome_votes_of_without rest]

theorem outcome_mentionsTime_of_without (rest : p.Without (Grammar.Silent text o) q) :
    (p.mentionsTime text o).outcome = (q.mentionsTime text o).outcome := by
  simp only [mentionsTime, Answer.outcome_bind, outcome_votes_of_without rest]

theorem outcome_resolve_of_without {weekStart : Weekday} {now : Instant} (v : Vocabulary)
    (rest : p.Without (fun g => g.Silent text (.plain now weekStart) ∧
      g.Silent text ⟨now, true, weekStart⟩) q) :
    (p.resolve v text weekStart now).outcome = (q.resolve v text weekStart now).outcome := by
  have plain := outcome_votes_of_without (rest.imp fun _ silent => silent.1)
  have forward := outcome_best_of_without (rest.imp fun _ silent => silent.2)
  simp only [resolve, Answer.outcome_bind, plain]
  congr 1
  funext votes
  split
  · rfl
  · simp only [Answer.outcome_bind]
    congr 1
    funext period
    cases period with
    | some start => rfl
    | none => simp only [Answer.outcome_bind, forward]

theorem outcome_best_of_perm (same : p.Perm q) (one : HasOneLongest (p.firsts text o)) :
    (p.best text o).outcome = (q.best text o).outcome := by
  by_cases stays : p.Stays text o
  · have stays' : q.Stays text o := fun g hg => stays g (same.mem_iff.2 hg)
    have votes : (p.firsts text o).Perm (q.firsts text o) := same.filterMap _
    rw [outcome_best stays, outcome_best stays', longest?_of_perm votes one]
  · have leaves : ¬ q.Stays text o := fun h => stays fun g hg => h g (same.mem_iff.1 hg)
    simp only [best, Answer.outcome_bind, outcome_votes_of_leaves stays,
      outcome_votes_of_leaves leaves]

/-- Arbitration: the first longest vote wins, silent grammars have no vote, and the order of the
grammars only breaks ties. -/
theorem arbitration (p : Pool) (text : String) (o : Options) :
    ((∃ vote, (p.best text o).outcome = .ok vote) ↔ p.Stays text o) ∧
    ((p.best text o).outcome = .ok none ↔ ∀ g ∈ p, g.Silent text o) ∧
    (∀ m, (p.best text o).outcome = .ok (some m) ↔ p.Stays text o ∧ p.Elects text o m) ∧
    (∀ q : Pool, p.Without (Grammar.Silent text o) q →
      (p.votes text o).outcome = (q.votes text o).outcome ∧
      (p.best text o).outcome = (q.best text o).outcome ∧
      (p.mentionsTime text o).outcome = (q.mentionsTime text o).outcome) ∧
    (∀ (q : Pool) (v : Vocabulary) (weekStart : Weekday) (now : Instant),
      p.Without (fun g => g.Silent text (.plain now weekStart) ∧
        g.Silent text ⟨now, true, weekStart⟩) q →
      (p.resolve v text weekStart now).outcome = (q.resolve v text weekStart now).outcome) ∧
    (∀ q : Pool, p.Perm q → HasOneLongest (p.firsts text o) →
      (p.best text o).outcome = (q.best text o).outcome) := by
  refine ⟨?_, ?_, ?_, ?_, ?_, ?_⟩
  · simp [outcome_best_eq_ok_iff]
  · rw [outcome_best_eq_ok_iff, longest?_eq_none_iff]
    exact ⟨fun ⟨stays, empty⟩ => silent_of_firsts_eq_nil stays empty, firsts_eq_nil_of_silent⟩
  · intro m
    rw [outcome_best_eq_ok_iff, elects_iff]
  · intro q rest
    exact ⟨outcome_votes_of_without rest, outcome_best_of_without rest,
      outcome_mentionsTime_of_without rest⟩
  · intro q v weekStart now rest
    exact outcome_resolve_of_without v rest
  · intro q same one
    exact outcome_best_of_perm same one

/-- Beside a longer vote neither a failure nor a shorter vote counts, in whatever order. -/
theorem arbitration_of_longer :
    let day : Instant := ⟨⟨20742, by decide, by decide⟩, .midnight⟩
    let short : Match := ⟨0, "ab", day, .none⟩
    let long : Match := ⟨0, "abc", day, .clock⟩
    let failing : Grammar := ⟨"de", fun _ _ => .error (.failed "unread")⟩
    let hasty : Grammar := ⟨"en", fun _ _ => .ok [short, long]⟩
    let thorough : Grammar := ⟨"fr", fun _ _ => .ok [long]⟩
    let p : Pool := [hasty, failing, thorough]
    let o := Options.plain day .monday
    let v := Vocabulary.ofTable .empty ["de", "en", "fr"]
    (p.best "abc" o).outcome = .ok (some long) ∧
      (p.mentionsTime "abc" o).outcome = (mentionsTime [hasty, thorough] "abc" o).outcome ∧
      (p.resolve v "abc" .monday day).outcome =
        (resolve [hasty, thorough] v "abc" .monday day).outcome ∧
      (p.best "abc" o).outcome = (best [thorough, failing, hasty] "abc" o).outcome := by
  intro day short long failing hasty thorough p o v
  obtain ⟨-, -, elected, deletion, resolution, order⟩ := arbitration p "abc" o
  have fails : ∀ o, failing.Silent "abc" o := fun o => .inr ⟨"unread", rfl⟩
  have stays : p.Stays "abc" o := by simp [Stays, p, hasty, failing, thorough]
  have elects : p.Elects "abc" o long :=
    ⟨[hasty, failing], thorough, [], rfl, rfl, by decide, by decide⟩
  refine ⟨(elected long).2 ⟨stays, elects⟩, ?_, ?_, ?_⟩
  · exact (deletion _ (.keep _ (.delete (fails o) (.keep _ .nil)))).2.2
  · exact resolution _ v .monday day (.keep _ (.delete ⟨fails _, fails _⟩ (.keep _ .nil)))
  · refine order _ (List.reverse_perm p).symm ?_
    intro m hm n hn unbeaten unbeaten'
    have votes : p.firsts "abc" o = [short, long] := rfl
    simp only [votes, List.mem_cons, List.not_mem_nil, or_false] at hm hn
    rcases hm with rfl | rfl
    · exact absurd (unbeaten long (by simp [votes])) (by decide)
    · rcases hn with rfl | rfl
      · exact absurd (unbeaten' long (by simp [votes])) (by decide)
      · rfl

end Pool

end DatePhrase
