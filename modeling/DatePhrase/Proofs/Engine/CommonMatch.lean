import DatePhrase.Proofs.Engine.InsideCalendar

/-! One match for all grammars. A casual match that covers the text is the first match of its
language, since no reader of phrases is asked then; where every language finds the same one, all
votes agree on it. -/
namespace DatePhrase
open Text Calendar

theorem Pool.longest?_of_forall {votes : List Match} {m : Match} (some : votes ≠ [])
    (same : ∀ n ∈ votes, n = m) : longest? votes = .some m := by
  induction votes with
  | nil => exact absurd rfl some
  | cons n votes ih =>
    obtain rfl := same n (by simp)
    cases votes with
    | nil => rfl
    | cons k votes =>
      rw [longest?, ih (List.cons_ne_nil k votes) fun l hl => same l (List.mem_cons_of_mem n hl)]
      simp

/-- Where a casual match covers the text, no reader of phrases is asked. -/
theorem English.read_eq_ok {reader : PhraseReader} {casual : Casual} {text : String} {o : Options}
    {found : List Match} (read : casual.grammar.read text o = .ok found)
    (whole : found.any (·.length == (trim text).length)) :
    (grammar reader casual).read text o = .ok found := by
  simp only [grammar, read, bind, Except.bind, whole, if_true]
  rfl

namespace Casual
variable {reader : PhraseReader} {t : Table} {language text : String} {o : Options} {m : Match}

/-- The casual grammar of the language finds this one match, all of the text. -/
structure ReadsWhole (t : Table) (language text : String) (o : Options) (m : Match) : Prop where
  read : (ofTable t language).grammar.read text o = .ok [m]
  whole : m.text = text
  trimmed : trim text = text

theorem ReadsWhole.read_eq_ok (h : ReadsWhole t language text o m) {g : Grammar}
    (made : Grammar.ofLanguage? reader t language = some g) : g.read text o = .ok [m] := by
  unfold Grammar.ofLanguage? at made
  split at made
  · obtain rfl := Option.some.inj made
    split
    · exact English.read_eq_ok h.read (by simp [h.trimmed, h.whole, Match.length])
    · exact h.read
  · cases made

theorem ReadsWhole.first?_eq (h : ReadsWhole t language text o m) {g : Grammar}
    (made : Grammar.ofLanguage? reader t language = some g) : g.first? text o = some m := by
  rw [Grammar.first?, h.read_eq_ok made]
  rfl

end Casual

namespace Engine
variable {reader : PhraseReader} {t : Table} {languages : List String} {text : String}
variable {o : Options} {m : Match}

theorem hasLanguage_of_supported {l : String} (h : l ∈ supported t languages) :
    t.hasLanguage l := by
  rw [supported, List.mem_eraseDups] at h
  exact (List.mem_filter.1 h).2

/-- The match of one language is among the votes. -/
theorem mem_firsts {l : String} (member : l ∈ supported t languages)
    (h : Casual.ReadsWhole t l text o m) :
    m ∈ (ofTable reader t languages).pool.firsts text o := by
  have made : Grammar.ofLanguage? reader t l = some _ := if_pos (hasLanguage_of_supported member)
  exact List.mem_filterMap.2 ⟨_, List.mem_filterMap.2 ⟨l, member, made⟩, h.first?_eq made⟩

/-- Where all languages find one match, there are votes, all for this match. -/
theorem firsts_of_common (some : supported t languages ≠ [])
    (each : ∀ l ∈ supported t languages, Casual.ReadsWhole t l text o m) :
    (ofTable reader t languages).pool.Stays text o ∧
      (ofTable reader t languages).pool.firsts text o ≠ [] ∧
      ∀ n ∈ (ofTable reader t languages).pool.firsts text o, n = m := by
  refine ⟨?_, ?_, ?_⟩
  · intro g listed
    obtain ⟨l, member, made⟩ := List.mem_filterMap.1 listed
    rw [(each l member).read_eq_ok made]
    exact nofun
  · obtain ⟨l, member⟩ := List.exists_mem_of_ne_nil _ some
    exact List.ne_nil_of_mem (mem_firsts member (each l member))
  · intro n vote
    obtain ⟨g, listed, first⟩ := List.mem_filterMap.1 vote
    obtain ⟨l, member, made⟩ := List.mem_filterMap.1 listed
    exact Option.some.inj (first.symm.trans ((each l member).first?_eq made))

theorem outcome_best_of_common (some : supported t languages ≠ [])
    (each : ∀ l ∈ supported t languages, Casual.ReadsWhole t l text o m) :
    ((ofTable reader t languages).pool.best text o).outcome = .ok (.some m) := by
  obtain ⟨stays, voted, same⟩ := firsts_of_common some each
  rw [Pool.outcome_best stays, Pool.longest?_of_forall voted same]

theorem outcome_mentionsTime_of_common (some : supported t languages ≠ [])
    (each : ∀ l ∈ supported t languages, Casual.ReadsWhole t l text o m) :
    ((ofTable reader t languages).pool.mentionsTime text o).outcome =
      .ok m.certain.statesTime := by
  obtain ⟨stays, voted, same⟩ := firsts_of_common some each
  obtain ⟨n, vote⟩ := List.exists_mem_of_ne_nil _ voted
  rw [Pool.outcome_mentionsTime stays]
  congr 1
  rw [Bool.eq_iff_iff, List.any_eq_true]
  constructor
  · rintro ⟨n, vote, states⟩
    exact same n vote ▸ states
  · exact fun states => ⟨n, vote, same n vote ▸ states⟩

end Engine

end DatePhrase
