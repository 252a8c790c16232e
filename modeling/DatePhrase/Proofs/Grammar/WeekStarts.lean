import DatePhrase.Proofs.Grammar.Room

/-! Readings under different first days of the week. No rule of the casual grammar looks at the
first day, and the English grammar only tells the reader of phrases whether it is Monday. Main
statement: the grammar of a language reads all texts alike under two first days, for English
provided that both are Monday or neither is. -/
namespace DatePhrase
open Text Calendar

section
variable {m : Type → Type} [Monad m] [LawfulMonad m] {α β : Type} {inputs : List α}

theorem mapM_congr {f f' : α → m β} (same : ∀ a ∈ inputs, f a = f' a) :
    inputs.mapM f = inputs.mapM f' := by
  induction inputs with
  | nil => rfl
  | cons a inputs ih =>
    rw [List.mapM_cons, List.mapM_cons, same a (by simp), ih fun b hb => same b (by simp [hb])]

theorem filterMapM_congr {f f' : α → m (Option β)} (same : ∀ a ∈ inputs, f a = f' a) :
    inputs.filterMapM f = inputs.filterMapM f' := by
  induction inputs with
  | nil => rfl
  | cons a inputs ih =>
    rw [List.filterMapM_cons, List.filterMapM_cons, same a (by simp),
      ih fun b hb => same b (by simp [hb])]

end

/-- The grammar reads every text alike, on whichever of the two days weeks start. -/
def Grammar.Blind (g : Grammar) (w w' : Weekday) : Prop :=
  ∀ text now forward, g.read text ⟨now, forward, w⟩ = g.read text ⟨now, forward, w'⟩

namespace Casual
variable {g : Casual} {o o' : Options}

theorem candidatesOf_congr {rule : Rule} (same : rule.Means fun meaning => meaning o = meaning o')
    (text : List Char) : g.candidatesOf text o rule = g.candidatesOf text o' rule := by
  apply filterMapM_congr
  intro span found
  obtain ⟨s, rest, read⟩ := Cut.mem_scan (List.mem_filter.1 found).1
  rw [same s span.value rest read]

/-- What the rules say depends on the reference and on the bias alone. -/
theorem blind (g : Casual) (w w' : Weekday) : g.grammar.Blind w w' := by
  intro text now forward
  have rules : ∀ rule ∈ g.rules, Rule.Means rule fun meaning : Meaning =>
      meaning ⟨now, forward, w⟩ = meaning ⟨now, forward, w'⟩ := fun rule listed =>
    means_of_mem_rules (fun _ _ _ => rfl) (fun _ _ => rfl) (fun _ _ => rfl) (fun _ _ _ => rfl)
      (fun _ => rfl) (fun _ => rfl) (fun _ => rfl) listed
  have same : g.candidates text.toList ⟨now, forward, w⟩ =
      g.candidates text.toList ⟨now, forward, w'⟩ := by
    rw [candidates, candidates,
      mapM_congr fun rule listed => candidatesOf_congr (rules rule listed) _]
  simp only [grammar, matches?, same]

end Casual

/-- The reader of phrases is told whether weeks start on Monday, and not on which other day. -/
theorem English.blind (reader : PhraseReader) (casual : Casual) {w w' : Weekday}
    (mondays : w = .monday ↔ w' = .monday) : (grammar reader casual).Blind w w' := by
  intro text now forward
  have whole : wholePhrase reader text ⟨now, forward, w⟩ =
      wholePhrase reader text ⟨now, forward, w'⟩ := by
    simp only [wholePhrase, mondays]
  simp only [grammar, casual.blind w w' text now forward, whole]

theorem Grammar.blind_of_ofLanguage? {reader : PhraseReader} {t : Table} {language : String}
    {g : Grammar} (made : Grammar.ofLanguage? reader t language = some g) {w w' : Weekday}
    (mondays : language = "en" → (w = .monday ↔ w' = .monday)) : g.Blind w w' := by
  unfold ofLanguage? at made
  split at made
  · obtain rfl := Option.some.inj made
    split
    · rename_i english
      exact English.blind reader _ (mondays english)
    · exact Casual.blind _ w w'
  · cases made

end DatePhrase
