import DatePhrase.Proofs.Grammar.Room
import DatePhrase.Proofs.Grammar.TimeAlternatives
import DatePhrase.Proofs.Text.Search

/-! Texts that the casual grammar understands as a whole. Where one rule prefers to read all of a
text and no other rule makes anything else of all of it, the spans in the text lose against the
whole, and the grammar finds one match. -/
namespace DatePhrase
open Text Calendar

theorem mapM_eq_ok {ε α β : Type} {f : α → Except ε β} {h : α → β} {inputs : List α}
    (each : ∀ a ∈ inputs, f a = .ok (h a)) : inputs.mapM f = .ok (inputs.map h) := by
  induction inputs with
  | nil => rfl
  | cons a inputs ih =>
    rw [List.mapM_cons, each a (by simp), ih fun b hb => each b (by simp [hb])]
    rfl

theorem filterMapM_eq_ok {ε α β : Type} {f : α → Except ε (Option β)} {h : α → Option β}
    {inputs : List α} (each : ∀ a ∈ inputs, f a = .ok (h a)) :
    inputs.filterMapM f = .ok (inputs.filterMap h) := by
  induction inputs with
  | nil => rfl
  | cons a inputs ih =>
    rw [List.filterMapM_cons, each a (by simp), ih fun b hb => each b (by simp [hb]),
      List.filterMap_cons]
    cases h a <;> rfl

namespace Casual
variable {g : Casual} {text : List Char} {o : Options} {stated : Stated}

theorem leads_iff {a b : Span Stated} :
    leads a b ↔ a.start < b.start ∨ a.start = b.start ∧ b.text.length ≤ a.text.length := by
  simp [leads]

theorem leads_trans (a b c : Span Stated) (hab : leads a b) (hbc : leads b c) : leads a c := by
  rw [leads_iff] at *
  omega

theorem leads_total (a b : Span Stated) : leads a b || leads b a := by
  rw [Bool.or_eq_true, leads_iff, leads_iff]
  omega

theorem selectFrom_passed {cursor : Nat} {spans : List (Span Stated)}
    (passed : ∀ s ∈ spans, s.start < cursor) : selectFrom cursor spans = [] := by
  induction spans with
  | nil => rfl
  | cons s spans ih =>
    rw [selectFrom, if_pos (passed s (by simp)), ih fun r hr => passed r (by simp [hr])]

/-- A span from the start that reaches over all others is the only one kept. -/
theorem select_of_whole {spans : List (Span Stated)} {whole : Span Stated} (found : whole ∈ spans)
    (first : whole.start = 0) (covers : ∀ s ∈ spans, s.start < whole.stop)
    (alone : ∀ s ∈ spans, s.start = 0 → whole.text.length ≤ s.text.length → s = whole) :
    select spans = [whole] := by
  have sorted := List.pairwise_mergeSort leads_trans leads_total spans
  have found' : whole ∈ spans.mergeSort leads := List.mem_mergeSort.2 found
  rw [select]
  cases order : spans.mergeSort leads with
  | nil => simp [order] at found'
  | cons head others =>
    have listed : ∀ s ∈ head :: others, s ∈ spans := fun s hs =>
      List.mem_mergeSort.1 (order ▸ hs)
    rw [order] at sorted found'
    have ahead : leads head whole := by
      rcases List.mem_cons.1 found' with rfl | later
      · exact leads_iff.2 (.inr ⟨rfl, Nat.le_refl _⟩)
      · exact (List.pairwise_cons.1 sorted).1 whole later
    have same : head = whole := by
      rw [leads_iff, first] at ahead
      have start : head.start = 0 := by omega
      exact alone head (listed head (by simp)) start (by omega)
    rw [selectFrom, if_neg (Nat.not_lt_zero _), same,
      selectFrom_passed fun s hs => covers s (listed s (by simp [hs]))]

section Forward
open Cut

theorem forward_cutSpace (g : Casual) : g.cutSpace.Forward := by
  unfold cutSpace
  split
  · exact forward_atLeastOne _
  · exact forward_many _

theorem forward_cutClock (g : Casual) : g.cutClock.Forward :=
  .or (.or
    (.bind (forward_oneTo _ _) fun _ =>
      .bind (.optional (.bind (forward_char _) fun _ => forward_exactly _ _)) fun _ =>
      .bind (forward_many _) fun _ => .bind (forward_oneOf _) fun _ => forward_pure _)
    (.bind (forward_oneTo _ _) fun _ => .bind (forward_char _) fun _ =>
      .bind (forward_exactly _ _) fun _ => forward_pure _))
    (.bind (forward_oneTo _ _) fun _ => .bind (forward_many _) fun _ =>
      .bind (forward_oneOf _) fun _ =>
      .bind (.optional (.bind (forward_many _) fun _ => forward_exactly _ _)) fun _ =>
      .bind (.optional (.bind (forward_many _) fun _ => forward_oneOf _)) fun _ => forward_pure _)

theorem forward_cutTrailing (g : Casual) : g.cutTrailing.Forward := by
  rw [cutTrailing_eq]
  exact .optional (.bind (.optional (.bind (forward_many _) fun _ => forward_oneOf _)) fun _ =>
    .bind (forward_many _) fun _ => .bind g.forward_cutClock.taken fun _ => forward_pure _)

theorem forward_of_mem_rules {rule : Rule} (h : rule ∈ g.rules) : Cut.Forward rule := by
  simp only [rules, List.mem_cons, List.not_mem_nil, or_false] at h
  rcases h with rfl | rfl | rfl | rfl | rfl | rfl | rfl
  · exact .bind (forward_exactly _ _) fun _ => .bind (forward_char _) fun _ =>
      .bind (forward_oneTo _ _) fun _ => .bind (forward_char _) fun _ =>
      .bind (forward_oneTo _ _) fun _ => forward_pure _
  · exact .bind (forward_oneOf _) fun _ => .bind g.forward_cutTrailing fun _ => forward_pure _
  · exact .bind (forward_oneOf _) fun _ => .bind g.forward_cutTrailing fun _ => forward_pure _
  · exact .bind (forward_oneOf _) fun _ => .bind g.forward_cutSpace fun _ =>
      .bind (forward_oneTo _ _) fun _ => .bind (forward_many _) fun _ =>
      .bind (forward_oneOf _) fun _ => .bind g.forward_cutTrailing fun _ => forward_pure _
  · exact .bind (forward_oneOf _) fun _ => .bind g.forward_cutSpace fun _ =>
      .bind (forward_oneOf _) fun _ => forward_pure _
  · exact .bind (forward_oneTo _ _) fun _ => .bind (forward_oneOf _) fun _ => forward_pure _
  · rw [timeRule_eq]
    exact .bind g.forward_cutClock.taken fun _ => forward_pure _

end Forward

/-- What a meaning says, none if it says nothing or leaves the calendar. -/
def stated? (m : Meaning) (o : Options) : Option Stated :=
  match m o with
  | .ok x => x
  | .error _ => none

theorem stated?_eq_some_iff {m : Meaning} :
    stated? m o = some stated ↔ m o = .ok (some stated) := by
  unfold stated?
  split <;> rename_i h <;> simp [h]

/-- The delimited spans of a rule that say something. -/
def statedSpans (g : Casual) (text : List Char) (o : Options) (rule : Rule) :
    List (Span Stated) :=
  ((rule.scan text).filter (g.isDelimited text ·)).filterMap fun s =>
    (stated? s.value o).map fun stated => ⟨s.start, s.text, stated⟩

/-- Over the text the rule stays in the calendar, and of all the text it says this or nothing. -/
def Agrees (g : Casual) (text : List Char) (o : Options) (stated : Stated) (rule : Rule) : Prop :=
  ∀ s ∈ rule.scan text, g.isDelimited text s → (∃ x, s.value o = .ok x) ∧
    (s.text = text → stated? s.value o = some stated)

/-- Reading no delimited span of the rule leaves the calendar. -/
def StaysOver (g : Casual) (text : List Char) (o : Options) (rule : Rule) : Prop :=
  ∀ s ∈ rule.scan text, g.isDelimited text s → ∃ x, s.value o = .ok x

theorem staysOver_of_stays {rule : Rule} (stays : rule.Stays o) : g.StaysOver text o rule := by
  intro s scanned _
  obtain ⟨rest, after, read⟩ := Cut.mem_scan scanned
  exact stays rest s.value after read

theorem candidatesOf_eq_ok {rule : Rule} (stays : g.StaysOver text o rule) :
    g.candidatesOf text o rule = .ok (g.statedSpans text o rule) := by
  apply filterMapM_eq_ok
  intro s found
  obtain ⟨scanned, delimited⟩ := List.mem_filter.1 found
  obtain ⟨x, meant⟩ := stays s scanned delimited
  rw [stated?, meant]
  rfl

theorem candidates_eq_ok (stays : ∀ rule ∈ g.rules, g.StaysOver text o rule) :
    g.candidates text o = .ok (g.rules.flatMap (g.statedSpans text o)) := by
  rw [candidates, mapM_eq_ok fun rule listed => candidatesOf_eq_ok (stays rule listed)]
  rfl

theorem agrees_of_whole {rule : Rule} {m : Meaning} (whole : Cut.Prefers rule text m [])
    (nonempty : text ≠ []) (meant : m o = .ok (some stated)) : g.Agrees text o stated rule := by
  intro s scanned _
  rw [whole.scan nonempty, List.mem_singleton] at scanned
  subst scanned
  exact ⟨⟨_, meant⟩, fun _ => stated?_eq_some_iff.2 meant⟩

theorem agrees_of_undelimited {rule : Rule}
    (undelimited : ∀ s ∈ rule.scan text, g.isDelimited text s = false) :
    g.Agrees text o stated rule := by
  intro s scanned delimited
  rw [undelimited s scanned] at delimited
  cases delimited

theorem agrees_of_stays {rule : Rule} (listed : rule ∈ g.rules) (stays : Rule.Stays rule o)
    (partial_only : ∀ m, (m, []) ∉ rule text) : g.Agrees text o stated rule := by
  intro s scanned _
  obtain ⟨before, after, parts, place, short, read⟩ :=
    Cut.exists_of_mem_scan (forward_of_mem_rules listed) scanned
  refine ⟨stays _ _ _ read, fun all => absurd ?_ (partial_only s.value)⟩
  have total := congrArg List.length parts
  simp only [List.length_append, all] at total
  have none : after = [] := List.length_eq_zero_iff.1 (by omega)
  rwa [none, List.append_nil, all] at read

theorem isDelimited_whole (g : Casual) {α : Type} (value : α) :
    g.isDelimited text ⟨0, text, value⟩ := by
  simp [isDelimited, Span.stop]

/-- A text that one rule reads as a whole and no other rule reads otherwise as a whole is the only
match in it. -/
theorem matches?_of_whole {rule : Rule} {m : Meaning} (listed : rule ∈ g.rules)
    (whole : Cut.Prefers rule text m [])
    (nonempty : text ≠ []) (meant : m o = .ok (some stated))
    (agrees : ∀ other ∈ g.rules, g.Agrees text o stated other) :
    g.matches? text o = .ok [⟨0, String.ofList text, stated.instant, stated.certain⟩] := by
  have spans : g.candidates text o = .ok (g.rules.flatMap (g.statedSpans text o)) :=
    candidates_eq_ok fun other hother s scanned delimited =>
      (agrees other hother s scanned delimited).1
  have found : (⟨0, text, stated⟩ : Span Stated) ∈ g.rules.flatMap (g.statedSpans text o) := by
    refine List.mem_flatMap.2 ⟨rule, listed, List.mem_filterMap.2 ⟨⟨0, text, m⟩,
      List.mem_filter.2 ⟨?_, g.isDelimited_whole m⟩, ?_⟩⟩
    · rw [whole.scan nonempty]
      exact List.mem_singleton_self _
    · rw [stated?_eq_some_iff.2 meant]
      rfl
  have kept : select (g.rules.flatMap (g.statedSpans text o)) = [⟨0, text, stated⟩] := by
    refine select_of_whole found rfl ?_ ?_
    all_goals
      intro s hs
      obtain ⟨other, hother, hs⟩ := List.mem_flatMap.1 hs
      obtain ⟨span, hspan, value⟩ := List.mem_filterMap.1 hs
      obtain ⟨x, read, rfl⟩ := Option.map_eq_some_iff.1 value
      obtain ⟨scanned, delimited⟩ := List.mem_filter.1 hspan
      obtain ⟨before, after, parts, place, short, -⟩ :=
        Cut.exists_of_mem_scan (forward_of_mem_rules hother) scanned
    · simpa [Span.stop] using short
    · intro start long
      have none : before = [] := List.length_eq_zero_iff.1 (by rw [place]; exact start)
      have total := congrArg List.length parts
      simp only [List.length_append, none, List.length_nil, Nat.zero_add] at total
      have rest : after = [] := List.length_eq_zero_iff.1 (by simp only at long; omega)
      have all : span.text = text := by rw [parts, none, rest, List.nil_append, List.append_nil]
      rw [(agrees other hother span scanned delimited).2 all, Option.some.injEq] at read
      simp only at start
      rw [start, all, read]
  simp only [matches?, spans, bind, Except.bind, pure, Except.pure, kept, List.map_cons,
    List.map_nil, toMatch, List.take_zero]
  rfl

theorem read_eq_ok {text : String} {found : List Match}
    (h : g.matches? text.toList o = .ok found) : g.grammar.read text o = .ok found := by
  simp only [grammar, h]
  rfl

end Casual

end DatePhrase
