import DatePhrase.Proofs.Vocabulary.SearchPatterns
import DatePhrase.Proofs.Vocabulary.Words

/-! Search patterns of word lists. Cut at its bars a pattern gives back the words that it was made
of, so it is determined by its words and they by it. Main statement: a pattern has each nonempty word
of a list once, longer ones first, and tried from left to right it takes the longest word that begins
a text. -/
namespace DatePhrase.Vocabulary
open Text Cut

theorem splitOn_of_pattern? {words : List String} {p : String} (made : pattern? words = some p) :
    (Sign.read? p.toList).map (·.splitOn .bar) = some (words.map Sign.ofWord) := by
  rw [Sign.read?_of_pattern? made, Option.map_some,
    Sign.splitOn_ofWords (ne_nil_of_pattern? made)]

theorem pattern?_inj {words others : List String} :
    pattern? words = pattern? others ↔ words = others := by
  refine ⟨fun same => ?_, congrArg pattern?⟩
  cases made : pattern? words with
  | none =>
    rw [made] at same
    rw [pattern?_eq_none_iff.1 made, pattern?_eq_none_iff.1 same.symm]
  | some p =>
    rw [made] at same
    have read := splitOn_of_pattern? made
    rw [splitOn_of_pattern? same.symm, Option.some_inj] at read
    exact (List.map_inj_right fun _ _ => (Sign.ofWord_injective ·)).1 read.symm

variable {words : List String} {text t rest : List Char} {w : String}

/-- The word is listed and begins the text, and no longer one does. -/
structure LongestAt (words : List String) (text : List Char) (w : String) : Prop where
  listed : w ∈ words
  nonempty : w ≠ ""
  begins : w.toList <+: text
  longest : ∀ v ∈ words, v.toList <+: text → v.length ≤ w.length

/-- The front `t` of the text is a listed word in any case, and no longer front is. -/
structure SpellsLongest (words : List String) (text t rest : List Char) : Prop where
  cut : text = t ++ rest
  nonempty : t ≠ []
  spelled : Spells words t
  longest : ∀ u, Spells words u → u <+: text → u.length ≤ t.length

/-- Two listed words that begin one text and have one length are the same. -/
theorem LongestAt.unique {v : String} (hw : LongestAt words text w) (hv : LongestAt words text v) :
    w = v := by
  have shorter := hv.longest w hw.listed hw.begins
  have longer := hw.longest v hv.listed hv.begins
  rw [← String.toList_inj]
  refine (List.prefix_of_prefix_length_le hw.begins hv.begins ?_).eq_of_length ?_ <;>
    simp only [String.length_toList] <;> omega

theorem longestAt_of_find? (found : (arrange words).find? (·.toList.isPrefixOf text) = some w) :
    LongestAt words text w := by
  obtain ⟨begins, before, after, order, early⟩ := List.find?_eq_some_iff_append.1 found
  obtain ⟨listed, nonempty⟩ := mem_arrange.1 (List.mem_of_find?_eq_some found)
  refine ⟨listed, nonempty, List.isPrefixOf_iff_prefix.1 begins, fun v hv opens => ?_⟩
  by_cases empty : v = ""
  · simp [empty]
  · have tried : v ∈ before ++ w :: after := order ▸ mem_arrange.2 ⟨hv, empty⟩
    have descending := pairwise_arrange words
    rw [order, List.pairwise_append, List.pairwise_cons] at descending
    rcases List.mem_append.1 tried with front | behind
    · have passed := early v front
      rw [List.isPrefixOf_iff_prefix.2 opens] at passed
      cases passed
    · rcases List.mem_cons.1 behind with rfl | later
      · exact Nat.le_refl _
      · exact descending.2.1.1 v later

theorem find?_eq_none_iff : (arrange words).find? (·.toList.isPrefixOf text) = none ↔
    ∀ w ∈ words, w.toList <+: text → w = "" := by
  simp only [List.find?_eq_none, mem_arrange, List.isPrefixOf_iff_prefix]
  constructor
  · intro none w listed begins
    by_contra nonempty
    exact none w ⟨listed, nonempty⟩ begins
  · rintro only w ⟨listed, nonempty⟩ begins
    exact nonempty (only w listed begins)

/-- The first word in order of length that begins a text is the longest. -/
theorem find?_eq_some_iff_longestAt :
    (arrange words).find? (·.toList.isPrefixOf text) = some w ↔ LongestAt words text w := by
  refine ⟨longestAt_of_find?, fun longest => ?_⟩
  cases found : (arrange words).find? (·.toList.isPrefixOf text) with
  | none =>
    exact absurd (find?_eq_none_iff.1 found w longest.listed longest.begins) longest.nonempty
  | some v => rw [(longestAt_of_find? found).unique longest]

theorem spells_arrange : Spells (arrange words) t ↔ Spells words t ∧ t ≠ [] := by
  simp only [Spells, mem_arrange]
  constructor
  · rintro ⟨w, ⟨listed, nonempty⟩, same⟩
    refine ⟨⟨w, listed, same⟩, ?_⟩
    rintro rfl
    simp_all
  · rintro ⟨⟨w, listed, same⟩, nonempty⟩
    refine ⟨w, ⟨listed, ?_⟩, same⟩
    rintro rfl
    simp_all

/-- Reading one of the arranged words in any case takes as much as any of them could. -/
theorem prefers_arrange_iff :
    (oneOf (arrange words)).Prefers text t rest ↔ SpellsLongest words text t rest := by
  constructor
  · intro taken
    obtain ⟨cut, spelled⟩ := mem_oneOf_iff.1 (List.mem_of_mem_head? taken)
    obtain ⟨spelled, nonempty⟩ := spells_arrange.1 spelled
    refine ⟨cut, nonempty, spelled, fun u hu begins => ?_⟩
    by_cases empty : u = []
    · simp [empty]
    · exact length_le_of_prefers_oneOf (pairwise_arrange words) taken
        (spells_arrange.2 ⟨hu, empty⟩) begins
  · rintro ⟨rfl, nonempty, spelled, longest⟩
    exact prefers_oneOf (pairwise_arrange words) (spells_arrange.2 ⟨spelled, nonempty⟩)
      fun u hu => longest u (spells_arrange.1 hu).1

/-- Of words tried in their order the first one that begins the text is taken. -/
theorem prefers_anyOf_iff {tried : List String} :
    (SearchPattern.anyOf (· == ·) tried).Prefers text t rest ↔
      ∃ w, tried.find? (·.toList.isPrefixOf text) = some w ∧ w.toList = t ∧ text = t ++ rest := by
  induction tried with
  | nil => simp [SearchPattern.anyOf, Prefers]
  | cons v tried ih =>
    rw [Prefers, SearchPattern.anyOf, List.flatMap_cons, List.head?_append,
      SearchPattern.spelled_beq]
    by_cases begins : v.toList.isPrefixOf text
    · obtain ⟨more, rfl⟩ := List.isPrefixOf_iff_prefix.1 begins
      simp only [begins, if_true, List.head?_cons, Option.some_or, List.drop_left,
        List.find?_cons_of_pos, Option.some_inj, Prod.mk.injEq, exists_eq_left']
      constructor
      · rintro ⟨rfl, rfl⟩
        exact ⟨rfl, rfl⟩
      · rintro ⟨rfl, same⟩
        exact ⟨rfl, List.append_cancel_left same⟩
    · rw [if_neg begins, List.head?_nil, Option.none_or,
        List.find?_cons_of_neg (by simpa using begins)]
      exact ih

theorem anyOf_eq_nil_iff {tried : List String} :
    SearchPattern.anyOf (· == ·) tried text = [] ↔
      tried.find? (·.toList.isPrefixOf text) = none := by
  rw [SearchPattern.anyOf, List.flatMap_eq_nil_iff, List.find?_eq_none]
  simp [SearchPattern.spelled_beq]

/-- The pattern is the words `tried` with bars between them, each character with a meaning behind a
backslash. These are the nonempty words of the list, each once, longer ones first and those of one
length in the order of their code points. So put together and tried from left to right the pattern
takes the longest word, letter by letter as well as in any case. -/
structure Encodes (words : List String) (pattern : String) (tried : List String)
    (search : SearchPattern) : Prop where
  cut : (Sign.read? pattern.toList).map (·.splitOn .bar) = some (tried.map Sign.ofWord)
  escaped : ∀ w ∈ words, ∀ c ∈ w.toList, c ∈ Sign.meaningful → ['\\', c] <:+: pattern.toList
  once : tried.Nodup
  mem_iff : ∀ w, w ∈ tried ↔ w ∈ words ∧ w ≠ ""
  ordered : tried.Pairwise fun v w => w.length < v.length ∨ v.length = w.length ∧ v < w
  read : SearchPattern.read? pattern = some search
  passes : ∀ text, search.cut (· == ·) text = [] ↔ ∀ w ∈ words, w.toList <+: text → w = ""
  takes : ∀ text t rest, (search.cut (· == ·)).Prefers text t rest ↔
    ∃ w, LongestAt words text w ∧ w.toList = t ∧ text = t ++ rest
  takes_cased : ∀ text t rest, (search.cut sameLetter).Prefers text t rest ↔
    SpellsLongest words text t rest

/-- Before another word stands a longer one, or one as long and of smaller code points. -/
theorem ordered_arrange (words : List String) : (arrange words).Pairwise fun v w =>
    w.length < v.length ∨ v.length = w.length ∧ v < w := by
  refine ((pairwise_precedes_arrange words).and (nodup_arrange words)).imp ?_
  rintro v w ⟨before, distinct⟩
  rw [precedes_iff] at before
  rcases before with shorter | ⟨same, order⟩
  · exact .inl shorter
  · exact .inr ⟨same, Std.lt_of_le_of_ne order distinct⟩

theorem encodes_of_alternation? {pattern : String} (made : alternation? words = some pattern) :
    ∃ tried search, Encodes words pattern tried search := by
  obtain ⟨search, read, cut⟩ := SearchPattern.read?_pattern? made
  refine ⟨arrange words, search, ?_⟩
  constructor
  · exact splitOn_of_pattern? made
  · intro w listed c letter meaning
    have nonempty : w ≠ "" := by
      rintro rfl
      simp at letter
    have tried := mem_arrange.2 ⟨listed, nonempty⟩
    exact Sign.infix_of_read? (Sign.read?_of_pattern? made)
      (Sign.literal_mem_ofWords tried letter) meaning
  · exact nodup_arrange words
  · exact fun w => mem_arrange
  · exact ordered_arrange words
  · exact read
  · intro text
    rw [cut, anyOf_eq_nil_iff, find?_eq_none_iff]
  · intro text t rest
    simp only [cut, prefers_anyOf_iff, find?_eq_some_iff_longestAt]
  · intro text t rest
    rw [cut, SearchPattern.anyOf_sameLetter]
    exact prefers_arrange_iff

/-- A list of words has a pattern unless none of them is nonempty. The pattern has each of these
words once and takes the longest one that begins a text; and lists have the same pattern just when
they have the same nonempty words. -/
theorem alternation_faithful (words : List String) :
    (alternation? words = none ↔ ∀ w ∈ words, w = "") ∧
    (∀ pattern, alternation? words = some pattern →
      ∃ tried search, Encodes words pattern tried search) ∧
    ∀ others, alternation? words = alternation? others ↔
      ∀ w, w ≠ "" → (w ∈ words ↔ w ∈ others) := by
  refine ⟨?_, fun pattern => encodes_of_alternation?, fun others => ?_⟩
  · rw [alternation?, pattern?_eq_none_iff, List.eq_nil_iff_forall_not_mem]
    simp only [mem_arrange, not_and, not_not]
  · rw [alternation?, alternation?, pattern?_inj, arrange_eq_iff]

/-- Words with characters that have a meaning in patterns, a word that begins another one, and an
empty one. -/
theorem alternation_faithful_escaped :
    let words := ["min", "a.m.", "", "(c|d)*\\", "minutes", "min", "[^-]"]
    let pattern := "\\(c\\|d\\)\\*\\\\|minutes|\\[\\^\\-\\]|a\\.m\\.|min"
    let tried := ["(c|d)*\\", "minutes", "[^-]", "a.m.", "min"]
    alternation? words = some pattern ∧ ∃ search, Encodes words pattern tried search ∧
      (search.cut (· == ·)).Prefers "(c|d)*\\".toList "(c|d)*\\".toList [] ∧
      (search.cut (· == ·)).Prefers "minutes ago".toList "minutes".toList " ago".toList ∧
      search.cut (· == ·) "axm.".toList = [] := by
  intro words pattern tried
  have order : arrange words = tried := by
    refine arrange_eq_of_ordered (by decide) fun w => ?_
    simp only [words, tried, List.mem_cons, List.not_mem_nil, or_false]
    grind
  have made : alternation? words = some pattern := by
    rw [alternation?, order]
    decide +kernel
  obtain ⟨tried', search, encodes⟩ := (alternation_faithful words).2.1 pattern made
  have same : tried'.map Sign.ofWord = tried.map Sign.ofWord := by
    refine Option.some.inj (encodes.cut.symm.trans ?_)
    decide +kernel
  obtain rfl := (List.map_inj_right fun _ _ => (Sign.ofWord_injective ·)).1 same
  have longest : ∀ text w, tried.find? (·.toList.isPrefixOf text) = some w →
      LongestAt words text w := by
    intro text w found
    rw [← order] at found
    exact find?_eq_some_iff_longestAt.1 found
  refine ⟨made, search, encodes, ?_, ?_, ?_⟩
  · exact (encodes.takes _ _ _).2 ⟨"(c|d)*\\", longest _ _ (by decide +kernel), rfl, rfl⟩
  · exact (encodes.takes _ _ _).2 ⟨"minutes", longest _ _ (by decide +kernel), rfl, rfl⟩
  · rw [encodes.passes]
    decide +kernel

end DatePhrase.Vocabulary
