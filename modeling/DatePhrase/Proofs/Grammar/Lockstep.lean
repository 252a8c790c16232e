import DatePhrase.Proofs.Grammar.KeptTime
import DatePhrase.Proofs.Grammar.WholeSpan
import Mathlib.Data.List.Forall2

/-! Two readings of one text, span by span. What relates all that the rules say under one set of
options to what they say under another relates the matches of both readings, which lie in the same
places. Main statement: readings from one instant find the same matches with the same certainty,
be they read into the future or not. -/
namespace DatePhrase
open Text Calendar

section
variable {ε α β γ : Type} {R : β → γ → Prop} {inputs : List α}

theorem forall₂_mapM {f : α → Except ε β} {f' : α → Except ε γ}
    (each : ∀ a ∈ inputs, ∃ b c, f a = .ok b ∧ f' a = .ok c ∧ R b c) :
    ∃ bs cs, inputs.mapM f = .ok bs ∧ inputs.mapM f' = .ok cs ∧ List.Forall₂ R bs cs := by
  induction inputs with
  | nil => exact ⟨[], [], rfl, rfl, .nil⟩
  | cons a inputs ih =>
    obtain ⟨b, c, first, first', related⟩ := each a (by simp)
    obtain ⟨bs, cs, others, others', pairs⟩ := ih fun d hd => each d (by simp [hd])
    refine ⟨b :: bs, c :: cs, ?_, ?_, .cons related pairs⟩
    · rw [List.mapM_cons, first, others]
      rfl
    · rw [List.mapM_cons, first', others']
      rfl

theorem forall₂_filterMapM {f : α → Except ε (Option β)} {f' : α → Except ε (Option γ)}
    (each : ∀ a ∈ inputs, ∃ b c, f a = .ok b ∧ f' a = .ok c ∧ Option.Rel R b c) :
    ∃ bs cs, inputs.filterMapM f = .ok bs ∧ inputs.filterMapM f' = .ok cs ∧
      List.Forall₂ R bs cs := by
  induction inputs with
  | nil => exact ⟨[], [], rfl, rfl, .nil⟩
  | cons a inputs ih =>
    obtain ⟨b, c, first, first', related⟩ := each a (by simp)
    obtain ⟨bs, cs, others, others', pairs⟩ := ih fun d hd => each d (by simp [hd])
    rw [List.filterMapM_cons, List.filterMapM_cons, first, first', others, others']
    cases related with
    | none => exact ⟨bs, cs, rfl, rfl, pairs⟩
    | some related => exact ⟨_ :: bs, _ :: cs, rfl, rfl, .cons related pairs⟩

/-- Sorting keeps related lists related when both orders see related elements alike. -/
theorem forall₂_mergeSort {bs : List β} {cs : List γ} {le : β → β → Bool} {le' : γ → γ → Bool}
    (pairs : List.Forall₂ R bs cs)
    (same : ∀ b c b' c', R b c → R b' c' → le b b' = le' c c') :
    List.Forall₂ R (bs.mergeSort le) (cs.mergeSort le') := by
  obtain ⟨length, related⟩ := List.forall₂_iff_zip.1 pairs
  -- both lists are halves of one list of pairs, sorted once
  have left : ((bs.zip cs).mergeSort fun x y => le x.1 y.1).map Prod.fst = bs.mergeSort le := by
    rw [List.map_mergeSort (f := Prod.fst) (s := le) fun _ _ _ _ => rfl, List.map_fst_zip length.le]
  have right : ((bs.zip cs).mergeSort fun x y => le x.1 y.1).map Prod.snd = cs.mergeSort le' := by
    rw [List.map_mergeSort (f := Prod.snd) (s := le') fun x hx y hy =>
        same _ _ _ _ (related hx) (related hy),
      List.map_snd_zip length.ge]
  rw [← left, ← right, List.forall₂_map_left_iff, List.forall₂_map_right_iff, List.forall₂_same]
  exact fun x hx => related (List.mem_mergeSort.1 hx)

end

/-- Two spans in one place with related values. -/
structure Text.Span.Alike {α β : Type} (R : α → β → Prop) (s : Span α) (s' : Span β) : Prop where
  start : s.start = s'.start
  text : s.text = s'.text
  value : R s.value s'.value

/-- Two matches in one place that state related things. -/
structure Match.Alike (R : Stated → Stated → Prop) (m m' : Match) : Prop where
  index : m.index = m'.index
  text : m.text = m'.text
  stated : R ⟨m.start, m.certain⟩ ⟨m'.start, m'.certain⟩

namespace Casual
variable {g : Casual} {o o' : Options} {R : Stated → Stated → Prop}

/-- Under both sets of options the span means something or it means nothing. -/
def Meaning.Couples (m : Meaning) (o o' : Options) (R : Stated → Stated → Prop) : Prop :=
  ∃ x x', m o = .ok x ∧ m o' = .ok x' ∧ Option.Rel R x x'

/-- What the rule makes of a span under one set of options is related to what it makes of it under
the other. -/
def Rule.Couples (rule : Rule) (o o' : Options) (R : Stated → Stated → Prop) : Prop :=
  ∀ s meaning rest, (meaning, rest) ∈ rule s → Meaning.Couples meaning o o' R

theorem forall₂_candidatesOf {rule : Rule} (couples : rule.Couples o o' R) (text : List Char) :
    ∃ spans spans', g.candidatesOf text o rule = .ok spans ∧
      g.candidatesOf text o' rule = .ok spans' ∧
      List.Forall₂ (Span.Alike R) spans spans' := by
  apply forall₂_filterMapM
  intro span found
  obtain ⟨s, rest, read⟩ := Cut.mem_scan (List.mem_filter.1 found).1
  obtain ⟨x, x', meant, meant', related⟩ := couples s span.value rest read
  refine ⟨_, _, by rw [meant]; rfl, by rw [meant']; rfl, ?_⟩
  cases related with
  | none => exact .none
  | some related => exact .some ⟨rfl, rfl, related⟩

theorem forall₂_selectFrom {spans spans' : List (Span Stated)}
    (pairs : List.Forall₂ (Span.Alike R) spans spans') (cursor : Nat) :
    List.Forall₂ (Span.Alike R) (selectFrom cursor spans) (selectFrom cursor spans') := by
  induction pairs generalizing cursor with
  | nil => exact .nil
  | @cons s s' spans spans' alike _ ih =>
    have stop : s.stop = s'.stop := by rw [Span.stop, alike.start, alike.text, Span.stop]
    rw [selectFrom, selectFrom, alike.start, stop]
    split
    · exact ih cursor
    · exact .cons alike (ih s'.stop)

theorem forall₂_select {spans spans' : List (Span Stated)}
    (pairs : List.Forall₂ (Span.Alike R) spans spans') :
    List.Forall₂ (Span.Alike R) (select spans) (select spans') := by
  refine forall₂_selectFrom (forall₂_mergeSort pairs ?_) 0
  intro s s' r r' alike alike'
  rw [leads, leads, alike.start, alike.text, alike'.start, alike'.text]

theorem alike_toMatch {s s' : Span Stated} (text : List Char) (alike : s.Alike R s') :
    (toMatch text s).Alike R (toMatch text s') :=
  ⟨by rw [toMatch, toMatch, alike.start], by rw [toMatch, toMatch, alike.text], alike.value⟩

/-- Where all rules say related things, both readings have matches, and these in the same places
with related things to say. -/
theorem forall₂_matches? (couples : ∀ rule ∈ g.rules, Rule.Couples rule o o' R)
    (text : List Char) :
    ∃ found found', g.matches? text o = .ok found ∧ g.matches? text o' = .ok found' ∧
      List.Forall₂ (Match.Alike R) found found' := by
  obtain ⟨parts, parts', each, each', pairs⟩ := forall₂_mapM fun rule listed =>
    forall₂_candidatesOf (g := g) (couples rule listed) text
  refine ⟨(select parts.flatten).map (toMatch text), (select parts'.flatten).map (toMatch text),
    by simp only [matches?, candidates, each]; rfl,
    by simp only [matches?, candidates, each']; rfl, ?_⟩
  rw [List.forall₂_map_left_iff, List.forall₂_map_right_iff]
  exact (forall₂_select (List.rel_flatten pairs)).imp fun s s' => alike_toMatch text

/-- The same components are stated. -/
def SameCertainty (s s' : Stated) : Prop := s.certain = s'.certain

/-- A meaning that is the same under both sets of options couples what it says with itself. -/
theorem couples_of_eq {m : Meaning} (refl : ∀ s, R s s) (same : m o = m o')
    (stays : ∃ x, m o = .ok x) : Meaning.Couples m o o' R := by
  obtain ⟨x, meant⟩ := stays
  refine ⟨x, x, meant, same ▸ meant, ?_⟩
  cases x with
  | none => exact .none
  | some s => exact .some (refl s)

/-- A stated time is put onto both, if onto either. -/
theorem rel_atTime {s s' : Stated} (untimed : R s s') (timed : ∀ clock,
      R ⟨⟨s.instant.date, clock⟩, s.certain.withClock⟩ ⟨⟨s'.instant.date, clock⟩, s'.certain.withClock⟩)
    (time : Option (List Char)) : Option.Rel R (g.atTime s time) (g.atTime s' time) := by
  cases time with
  | none => exact .some untimed
  | some text =>
    simp only [atTime]
    cases g.clockTime? text with
    | none => exact .none
    | some clock => exact .some (timed clock)

theorem couples_weekdayMeaning (room : o.HasRoom) (room' : o'.HasRoom) (word : List Char)
    (time : Option (List Char)) :
    Meaning.Couples (g.weekdayMeaning word time) o o' SameCertainty := by
  obtain ⟨i, meant⟩ := exists_weekdayMeaning_eq (g := g) room word time
  obtain ⟨i', meant'⟩ := exists_weekdayMeaning_eq (g := g) room' word time
  refine ⟨_, _, meant, meant', ?_⟩
  cases g.days.lookup (asListed word) with
  | none => exact .none
  | some day =>
    have same : SameCertainty ⟨i, .ofList [.weekday]⟩ ⟨i', .ofList [.weekday]⟩ := rfl
    exact rel_atTime same (fun _ => congrArg Certainty.withClock same) time

theorem couples_timeMeaning (room : o.HasRoom) (room' : o'.HasRoom) (text : List Char) :
    Meaning.Couples (g.timeMeaning text) o o' SameCertainty := by
  obtain ⟨i, meant⟩ := exists_timeMeaning_eq (g := g) room text
  obtain ⟨i', meant'⟩ := exists_timeMeaning_eq (g := g) room' text
  refine ⟨_, _, meant, meant', ?_⟩
  cases g.clockTime? text with
  | none => exact .none
  | some time => exact .some rfl

/-- Only weekdays and bare times depend on more than the reference. -/
theorem couples_sameCertainty (room : o.HasRoom) (room' : o'.HasRoom)
    (same : o.reference = o'.reference) {rule : Rule} (listed : rule ∈ g.rules) :
    rule.Couples o o' SameCertainty := by
  refine means_of_mem_rules (P := (Meaning.Couples · o o' SameCertainty))
    ?_ ?_ ?_ ?_ ?_ ?_ ?_ listed
  · intro year month day
    exact couples_of_eq (fun _ => rfl) (by rw [isoMeaning, isoMeaning, same]) ⟨_, rfl⟩
  · intro word time
    exact couples_of_eq (fun _ => rfl) (by rw [dayWordMeaning, dayWordMeaning, same])
      (exists_dayWordMeaning room word time)
  · exact couples_weekdayMeaning room room'
  · intro amount unit time
    exact couples_of_eq (fun _ => rfl) (by rw [offsetMeaning, offsetMeaning, same]) ⟨_, rfl⟩
  · intro unit
    exact couples_of_eq (fun _ => rfl) (by rw [periodMeaning, periodMeaning, same]) ⟨_, rfl⟩
  · intro day
    exact couples_of_eq (fun _ => rfl) (by rw [ordinalMeaning, ordinalMeaning, same]) ⟨_, rfl⟩
  · exact couples_timeMeaning room room'

/-- Two readings of a text from one instant find matches in the same places, and each states the
same components in both. -/
theorem forall₂_read (g : Casual) (room : o.HasRoom) (room' : o'.HasRoom)
    (same : o.reference = o'.reference) (text : String) :
    ∃ found found', g.grammar.read text o = .ok found ∧ g.grammar.read text o' = .ok found' ∧
      List.Forall₂ (Match.Alike SameCertainty) found found' := by
  obtain ⟨found, found', read, read', pairs⟩ := forall₂_matches? (g := g)
    (fun _ => couples_sameCertainty room room' same) text.toList
  exact ⟨found, found', read_eq_ok read, read_eq_ok read', pairs⟩

end Casual

end DatePhrase
