import DatePhrase.Proofs.Grammar.TrimmedMatches
import DatePhrase.Proofs.Text.Letters

/-! Days that a text spells out. A rule for day words or weekdays takes the longest word at a place
and a time behind it before anything else is asked about them, and goes on behind what it took; so a
day is lost only inside a span that was taken and refused. Main statement: where a listed word stands
in a text the grammar finds a match, or a refused span lies over the word; words of letters and
numbers that nothing touches are never lost in a text without digits. -/
namespace DatePhrase
open Text Calendar

namespace Casual
open Cut

/-- Words that a rule takes with a time behind them, and what it makes of both. -/
inductive DayNames (g : Casual) : List String → (List Char → Option (List Char) → Meaning) → Prop
  | dayWords : DayNames g g.immediateWords g.dayWordMeaning
  | weekdays : DayNames g g.dayWords g.weekdayMeaning

/-- A word with the time behind it, as it is taken off a text. -/
structure TimedWord where
  before : List Char
  word : List Char
  /-- What is taken behind the word. -/
  tail : List Char
  time : Option (List Char)
  after : List Char

namespace TimedWord

/-- The span from the word to its time. -/
def span (p : TimedWord) (meaning : List Char → Option (List Char) → Meaning) : Span Meaning :=
  ⟨p.before.length, p.word ++ p.tail, meaning p.word p.time⟩

/-- The place in the text lies in the span. -/
def Covers (p : TimedWord) (place : Nat) : Prop :=
  p.before.length ≤ place ∧ place < p.before.length + (p.word ++ p.tail).length

end TimedWord

/-- The search of the rule takes the word, the longest listed one at its place in whatever case, with
the time that it prefers there. -/
structure Takes (g : Casual) (words : List String)
    (meaning : List Char → Option (List Char) → Meaning) (text : List Char) (p : TimedWord) :
    Prop where
  scanned : p.span meaning ∈ (g.timedRule words meaning).scan text
  parts : text = p.before ++ (p.word ++ (p.tail ++ p.after))
  spelled : Spells words p.word
  longest : ∀ u, Spells words u → u <+: p.word ++ (p.tail ++ p.after) → u.length ≤ p.word.length
  trailing : g.cutTrailing.Prefers (p.tail ++ p.after) p.time p.after

/-- Why a span comes to nothing: a letter or number touches it, where that counts, its time is out
of range, or its word is listed only in other letters. -/
inductive Refuses (g : Casual) (words : List String) (p : TimedWord) : Prop
  | touched {c : Char} (bounded : g.bounded)
      (touches : p.before.getLast? = some c ∨ p.after.head? = some c) (letter : isAlphanumeric c)
  | untimely {time : List Char} (states : p.time = some time) (invalid : g.clockTime? time = none)
  | unlisted (absent : String.ofList p.word ∉ words)

section Taking
variable {g : Casual} {words : List String} {meaning : List Char → Option (List Char) → Meaning}
  {text : List Char}

theorem cutTrailing_ne_nil (g : Casual) (s : List Char) : g.cutTrailing s ≠ [] := by
  have skipped : (none, s) ∈ g.cutTrailing s := mem_optional.2 (.inr ⟨rfl, rfl⟩)
  exact List.ne_nil_of_mem skipped

theorem timedRule_behind_ne_nil (g : Casual) (word s : List Char) :
    (g.cutTrailing >>= fun time => (pure (meaning word time) : Rule)) s ≠ [] := by
  obtain ⟨way, ways, trailing⟩ := List.exists_cons_of_ne_nil (g.cutTrailing_ne_nil s)
  simp [Bind.bind, trailing, Pure.pure]

/-- What the rule prefers at a place: the word, its time, and what they mean. -/
theorem exists_of_prefers_timedRule {s rest : List Char} {value : Meaning}
    (h : (g.timedRule words meaning).Prefers s value rest) : ∃ word mid time,
      (oneOf words).Prefers s word mid ∧ g.cutTrailing.Prefers mid time rest ∧
        value = meaning word time := by
  obtain ⟨word, mid, first, later⟩ :=
    exists_of_prefers_bind (fun word mid => timedRule_behind_ne_nil g word mid) h
  obtain ⟨time, trailing, rfl⟩ := exists_of_prefers_bind_pure later
  exact ⟨word, mid, time, first, trailing, rfl⟩

/-- Each span that the search finds is a word with its time. -/
theorem exists_takes_of_mem_scan (forward : (g.timedRule words meaning).Forward)
    (ordered : words.Pairwise fun v w => w.length ≤ v.length) {s : Span Meaning}
    (found : s ∈ (g.timedRule words meaning).scan text) :
    ∃ p : TimedWord, g.Takes words meaning text p ∧ p.span meaning = s := by
  obtain ⟨before, after, parts, place, -, read⟩ := prefers_of_mem_scan forward found
  obtain ⟨word, mid, time, first, trailing, value⟩ := exists_of_prefers_timedRule read
  obtain ⟨cut, spelled⟩ := mem_oneOf_iff.1 (List.mem_of_mem_head? first)
  obtain ⟨tail, rfl⟩ := g.forward_cutTrailing _ _ _ (List.mem_of_mem_head? trailing)
  have taken : s.text = word ++ tail := by
    rw [← List.append_assoc] at cut
    exact List.append_cancel_right cut
  have whole : TimedWord.span ⟨before, word, tail, time, after⟩ meaning = s := by
    rw [TimedWord.span, place, ← taken, ← value]
  refine ⟨⟨before, word, tail, time, after⟩, ⟨?_, ?_, spelled, ?_, trailing⟩, whole⟩
  · rw [whole]
    exact found
  · rw [parts, cut]
  · intro u listed begins
    rw [← cut] at begins
    exact length_le_of_prefers_oneOf ordered first listed begins

/-- In a text in lower case the word is in lower case. -/
theorem Takes.asListed_word {p : TimedWord} (takes : g.Takes words meaning text p)
    (lowercase : lowerChars text = text) : asListed p.word = String.ofList p.word := by
  have settled := settled_of_lowerFrom lowercase
  have own : lowerChars p.word = p.word :=
    lowerFrom_of_settled (fun c hc => settled c (by simp [takes.parts, hc])) []
  rw [asListed, own]

/-- What is not refused is not touched, where that counts. -/
theorem Takes.isDelimited {p : TimedWord} (takes : g.Takes words meaning text p)
    (passes : ¬ g.Refuses words p) : g.isDelimited text (p.span meaning) := by
  have front : text.take p.before.length = p.before := by
    rw [takes.parts, List.take_left]
  have back : text.drop (p.span meaning).stop = p.after := by
    have parts : text = (p.before ++ (p.word ++ p.tail)) ++ p.after := by
      simpa only [List.append_assoc] using takes.parts
    rw [parts]
    exact List.drop_left' (by rw [List.length_append]; rfl)
  have untouched : g.bounded → ∀ c, p.before.getLast? = some c ∨ p.after.head? = some c →
      ¬ isAlphanumeric c :=
    fun bounded c touches letter => passes (.touched bounded touches letter)
  simp only [Casual.isDelimited, back, Bool.or_eq_true, Bool.not_eq_true', Bool.or_eq_false_iff]
  refine or_iff_not_imp_left.2 fun bounded => ?_
  have free := untouched (by simpa using bounded)
  constructor
  · rw [TimedWord.span, front, ← Bool.not_eq_true, Option.any_eq_true]
    rintro ⟨c, last, letter⟩
    exact free c (.inl last) letter
  · rw [← Bool.not_eq_true, Option.any_eq_true]
    rintro ⟨c, first, letter⟩
    exact free c (.inr first) letter

end Taking

section Stating
variable {g : Casual} {o : Options} {time : Option (List Char)}

theorem exists_atTime (s : Stated) (valid : ∀ τ ∈ time, g.clockTime? τ ≠ none) :
    ∃ stated, g.atTime s time = some stated := by
  cases time with
  | none => exact ⟨s, rfl⟩
  | some τ =>
    obtain ⟨clock, read⟩ := Option.ne_none_iff_exists'.1 (valid τ rfl)
    exact ⟨⟨⟨s.instant.date, clock⟩, s.certain.withClock⟩, by rw [atTime, read]; rfl⟩

/-- A day word with a valid time, if any, means an instant. -/
theorem exists_stated_dayWord (room : o.HasRoom) {word : List Char} {i : Immediate}
    (known : g.immediate.lookup (asListed word) = some i)
    (valid : ∀ τ ∈ time, g.clockTime? τ ≠ none) :
    ∃ stated, g.dayWordMeaning word time o = .ok (some stated) := by
  have at_day : ∀ s : Stated, ∃ stated, (pure (g.atTime s time) : Except Fault (Option Stated)) =
      .ok (some stated) := fun s => by
    obtain ⟨stated, timed⟩ := exists_atTime s valid
    exact ⟨stated, by rw [timed]; rfl⟩
  rw [dayWordMeaning, known]
  cases i with
  | now | today => exact at_day _
  | tomorrow =>
    obtain ⟨later, moved⟩ := room.exists_move (n := 1) (by decide) (by decide)
    simp only [moved]
    exact at_day ⟨later, .calendarDay⟩
  | yesterday =>
    obtain ⟨earlier, moved⟩ := room.exists_move (n := -1) (by decide) (by decide)
    simp only [moved]
    exact at_day ⟨earlier, .calendarDay⟩

/-- A weekday with a valid time, if any, means an instant. -/
theorem exists_stated_weekday (room : o.HasRoom) {word : List Char} {day : Weekday}
    (known : g.days.lookup (asListed word) = some day)
    (valid : ∀ τ ∈ time, g.clockTime? τ ≠ none) :
    ∃ stated, g.weekdayMeaning word time o = .ok (some stated) := by
  obtain ⟨i, meant⟩ := exists_weekdayMeaning_eq (g := g) room word time
  obtain ⟨stated, timed⟩ := exists_atTime (g := g) ⟨i, .ofList [.weekday]⟩ valid
  exact ⟨stated, by rw [meant, known, Option.bind_some, timed]⟩

end Stating

namespace DayNames
variable {t : Table} {language : String} {words : List String}
  {meaning : List Char → Option (List Char) → Meaning}

theorem mem_rules {g : Casual} (names : g.DayNames words meaning) :
    g.timedRule words meaning ∈ g.rules := by
  cases names with
  | dayWords => simp [rules, dayWordRule_eq]
  | weekdays => simp [rules, weekdayRule_eq]

theorem ordered (names : (ofTable t language).DayNames words meaning) :
    words.Pairwise fun v w => w.length ≤ v.length := by
  cases names <;> exact Vocabulary.pairwise_arrange _

theorem solid (names : (ofTable t language).DayNames words meaning) :
    ∀ w ∈ words, Solid w.toList := by
  cases names with
  | dayWords => exact solid_immediateWords
  | weekdays => exact solid_dayWords

/-- A listed word with a valid time, if any, means an instant. -/
theorem exists_stated (names : (ofTable t language).DayNames words meaning) {o : Options}
    (room : o.HasRoom) {word : List Char} (listed : asListed word ∈ words)
    {time : Option (List Char)}
    (valid : ∀ τ ∈ time, (ofTable t language).clockTime? τ ≠ none) :
    ∃ stated, meaning word time o = .ok (some stated) := by
  cases names with
  | dayWords =>
    obtain ⟨i, own⟩ := mem_immediateWords.1 listed
    have some : ((ofTable t language).immediate.lookup (asListed word)).isSome :=
      List.lookup_isSome_iff.2 ⟨_, mem_immediate.2 own, beq_self_eq_true _⟩
    obtain ⟨meant, known⟩ := Option.isSome_iff_exists.1 some
    exact exists_stated_dayWord room known valid
  | weekdays =>
    obtain ⟨day, own⟩ := mem_dayWords.1 listed
    have some : ((ofTable t language).days.lookup (asListed word)).isSome :=
      List.lookup_isSome_iff.2 ⟨_, mem_days.2 own, beq_self_eq_true _⟩
    obtain ⟨meant, known⟩ := Option.isSome_iff_exists.1 some
    exact exists_stated_weekday room known valid

end DayNames

section Reading
variable {t : Table} {language text : String} {o : Options} {words : List String}
  {meaning : List Char → Option (List Char) → Meaning}

/-- What a rule offers is a match or overlaps one, so the grammar finds something. -/
theorem exists_read_of_offers (room : o.HasRoom) {rule : Rule}
    (listed : rule ∈ (ofTable t language).rules) {n : Match}
    (offered : (ofTable t language).Offers rule text.toList o n) :
    ∃ m found, (ofTable t language).grammar.read text o = .ok (m :: found) := by
  have stays : ∀ rule ∈ (ofTable t language).rules,
      (ofTable t language).StaysOver text.toList o rule :=
    fun rule listed => staysOver_of_stays (stays_of_mem_rules room listed)
  obtain ⟨found, reads, greedy⟩ := read_isGreedy t language text o stays
  have filled : found ≠ [] := by
    rcases greedy.overlapped rule listed n offered with kept | ⟨m, kept, -⟩
    · exact List.ne_nil_of_mem kept
    · exact List.ne_nil_of_mem kept
  obtain ⟨m, rest, rfl⟩ := List.exists_cons_of_ne_nil filled
  exact ⟨m, rest, reads⟩

/-- A span that is taken and not refused is offered. -/
theorem offers_of_takes (names : (ofTable t language).DayNames words meaning) (room : o.HasRoom)
    (lowercase : lower text = text) {p : TimedWord}
    (takes : (ofTable t language).Takes words meaning text.toList p)
    (passes : ¬ (ofTable t language).Refuses words p) :
    ∃ n, (ofTable t language).Offers ((ofTable t language).timedRule words meaning)
      text.toList o n := by
  have unchanged : lowerChars text.toList = text.toList := by
    simpa [lower] using congrArg String.toList lowercase
  have listed : asListed p.word ∈ words := by
    rw [takes.asListed_word unchanged]
    exact of_not_not fun absent => passes (.unlisted absent)
  obtain ⟨stated, meant⟩ := names.exists_stated room listed fun time states invalid =>
    passes (.untimely states invalid)
  exact ⟨_, p.span meaning, takes.scanned, takes.isDelimited passes, stated, meant, rfl⟩

/-- Over a listed word in the text lies a span that the search takes. -/
theorem exists_takes_of_listed (names : (ofTable t language).DayNames words meaning) {w : String}
    (listed : w ∈ words) {text before after : List Char}
    (parts : text = before ++ (w.toList ++ after)) :
    ∃ p, (ofTable t language).Takes words meaning text p ∧ p.Covers before.length := by
  have way : (ofTable t language).timedRule words meaning (w.toList ++ after) ≠ [] :=
    List.ne_nil_of_mem (mem_bind.2 ⟨w.toList, after, mem_oneOf_iff.2 ⟨rfl, w, listed, rfl⟩,
      mem_bind.2 ⟨none, after, mem_optional.2 (.inr ⟨rfl, rfl⟩), mem_pure.2 ⟨rfl, rfl⟩⟩⟩)
  obtain ⟨s, found, starts, reaches⟩ : ∃ s ∈ ((ofTable t language).timedRule words meaning).scan
      (before ++ (w.toList ++ after)), s.start ≤ before.length ∧ before.length < s.stop :=
    exists_covering_of_scan (advances_of_mem_rules names.mem_rules) way
      (by simp [(names.solid w listed).nonempty])
  rw [← parts] at found
  obtain ⟨p, takes, rfl⟩ :=
    exists_takes_of_mem_scan (forward_of_mem_rules names.mem_rules) names.ordered found
  exact ⟨p, takes, starts, reaches⟩

/-- An untouched listed word with a valid time, if any, is not refused. -/
theorem not_refuses {g : Casual} {p : TimedWord} (listed : String.ofList p.word ∈ words)
    (valid : ∀ τ ∈ p.time, g.clockTime? τ ≠ none)
    (front : ∀ c ∈ p.before.getLast?, isAlphanumeric c = false)
    (back : Stops isAlphanumeric p.after) : ¬ g.Refuses words p := by
  rintro (⟨-, touches | touches, letter⟩ | ⟨states, invalid⟩ | absent)
  · rw [front _ touches] at letter
    cases letter
  · rw [back _ touches] at letter
    cases letter
  · exact valid _ states invalid
  · exact absent listed

/-- Where no digit stands, a span of a word of letters and numbers that lies over a delimited word is
that word. -/
theorem not_refuses_of_undigited {p : TimedWord} {w : String} {text before after : List Char}
    (takes : (ofTable t language).Takes words meaning text p) (covers : p.Covers before.length)
    (listed : w ∈ words) (parts : text = before ++ (w.toList ++ after))
    (letters : ∀ v ∈ words, ∀ c ∈ v.toList, isAlphanumeric c)
    (undigited : ∀ c ∈ text, isDigit c = false)
    (front : ∀ c ∈ before.getLast?, isAlphanumeric c = false) (back : Stops isAlphanumeric after) :
    ¬ (ofTable t language).Refuses words p := by
  obtain ⟨untimed, alone⟩ : p.time = none ∧ p.after = p.tail ++ p.after :=
    of_mem_cutTrailing (fun c hc => undigited c (by
      rw [takes.parts]
      exact List.mem_append_right _ (List.mem_append_right _ hc)))
      (List.mem_of_mem_head? takes.trailing)
  have tailless : p.tail = [] := List.self_eq_append_left.1 alone
  have single := isAlphanumeric_of_spells letters takes.spelled
  have same : p.before ++ (p.word ++ p.after) = before ++ (w.toList ++ after) := by
    rw [← parts, takes.parts, tailless, List.nil_append]
  obtain ⟨first, last⟩ := covers
  rw [tailless, List.append_nil] at last
  obtain ⟨place, rest⟩ := begins_of_delimited single same first last front
  have long : w.toList.length ≤ p.word.length := by
    refine takes.longest w.toList ⟨w, listed, rfl⟩ ⟨after, ?_⟩
    rw [← rest, tailless, List.nil_append]
  obtain ⟨own, ending⟩ := ends_of_delimited single rest long back
  exact not_refuses (by rwa [own, String.ofList_toList]) (by simp [untimed]) (place ▸ front)
    (ending ▸ back)

/-- A span over the first listed word of a text is that word, with the time that follows it. -/
theorem not_refuses_of_first {p : TimedWord} {w : String} {text before after : List Char}
    (takes : (ofTable t language).Takes words meaning text p) (covers : p.Covers before.length)
    (listed : w ∈ words) (parts : text = before ++ (w.toList ++ after))
    (first : ∀ x u y, text = x ++ (u ++ y) → Spells words u →
      before.length ≤ x.length ∧ (x = before → u.length ≤ w.toList.length))
    (front : ∀ c ∈ before.getLast?, isAlphanumeric c = false)
    (timely : ∀ time rest, (ofTable t language).cutTrailing.Prefers after time rest →
      (∀ τ ∈ time, (ofTable t language).clockTime? τ ≠ none) ∧ Stops isAlphanumeric rest) :
    ¬ (ofTable t language).Refuses words p := by
  obtain ⟨behind, bound⟩ := first p.before p.word (p.tail ++ p.after) takes.parts takes.spelled
  have same : p.before ++ (p.word ++ (p.tail ++ p.after)) = before ++ (w.toList ++ after) := by
    rw [← parts, takes.parts]
  obtain ⟨place, rest⟩ := List.append_inj same (Nat.le_antisymm covers.1 behind)
  have long : w.toList.length ≤ p.word.length :=
    takes.longest w.toList ⟨w, listed, rfl⟩ ⟨after, rest.symm⟩
  obtain ⟨own, ending⟩ := List.append_inj rest (Nat.le_antisymm (bound place) long)
  have trailing := takes.trailing
  rw [ending] at trailing
  obtain ⟨valid, back⟩ := timely p.time p.after trailing
  exact not_refuses (by rwa [own, String.ofList_toList]) valid (place ▸ front) back

/-- Where a day word or a weekday stands in a text in lower case, the grammar of a language finds a
match, or a span that its search takes over the word is refused. The first listed word, the longest
at its place, is not lost unless it is touched or what follows is a time that is touched or out of
range; in a text without digits no word is lost that is not touched, if words are letters and
numbers. -/
theorem read_spelled_day (t : Table) (language text : String) (o : Options)
    (inside : o.reference.date.Inside 14) (lowercase : lower text = text)
    (names : (ofTable t language).DayNames words meaning) {w : String} (listed : w ∈ words)
    {before after : List Char} (parts : text.toList = before ++ (w.toList ++ after)) :
    ((∃ m found, (ofTable t language).grammar.read text o = .ok (m :: found)) ∨
      ∃ p, (ofTable t language).Takes words meaning text.toList p ∧ p.Covers before.length ∧
        (ofTable t language).Refuses words p) ∧
    ((∀ x u y, text.toList = x ++ (u ++ y) → Spells words u →
        before.length ≤ x.length ∧ (x = before → u.length ≤ w.toList.length)) →
      (∀ c ∈ before.getLast?, isAlphanumeric c = false) →
      (∀ time rest, (ofTable t language).cutTrailing.Prefers after time rest →
        (∀ τ ∈ time, (ofTable t language).clockTime? τ ≠ none) ∧ Stops isAlphanumeric rest) →
      ∃ m found, (ofTable t language).grammar.read text o = .ok (m :: found)) ∧
    ((∀ v ∈ words, ∀ c ∈ v.toList, isAlphanumeric c) →
      (∀ c ∈ text.toList, isDigit c = false) →
      (∀ c ∈ before.getLast?, isAlphanumeric c = false) → Stops isAlphanumeric after →
      ∃ m found, (ofTable t language).grammar.read text o = .ok (m :: found)) := by
  have room := Options.hasRoom_of_inside inside o.forward o.weekStart
  obtain ⟨p, takes, covers⟩ := exists_takes_of_listed names listed parts
  have reads : ¬ (ofTable t language).Refuses words p →
      ∃ m found, (ofTable t language).grammar.read text o = .ok (m :: found) := fun passes => by
    obtain ⟨n, offered⟩ := offers_of_takes names room lowercase takes passes
    exact exists_read_of_offers room names.mem_rules offered
  refine ⟨?_, ?_, ?_⟩
  · by_cases refused : (ofTable t language).Refuses words p
    · exact .inr ⟨p, takes, covers, refused⟩
    · exact .inl (reads refused)
  · intro first front timely
    exact reads (not_refuses_of_first takes covers listed parts first front timely)
  · intro letters undigited front back
    exact reads (not_refuses_of_undigited takes covers listed parts letters undigited front back)

/-- A day behind another word, with a point behind it. -/
theorem read_spelled_day_point :
    let t := Table.empty.insert "en" "tomorrow" "tomorrow"
    let g := ofTable t "en"
    let o : Options := ⟨⟨⟨20742, by decide, by decide⟩, .midnight⟩, true, .monday⟩
    let text := "done by tomorrow."
    g.bounded ∧ o.reference.date.Inside 14 ∧ lower text = text ∧ "tomorrow" ∈ g.immediateWords ∧
      text.toList = "done by ".toList ++ ("tomorrow".toList ++ ['.']) ∧
      ∃ m found, g.grammar.read text o = .ok (m :: found) := by
  intro t g o text
  have inside : o.reference.date.Inside 14 := by decide
  have lowercase : lower text = text := by decide +kernel
  have words : g.immediateWords = ["tomorrow"] := by decide +kernel
  have listed : "tomorrow" ∈ g.immediateWords := by simp [words]
  have parts : text.toList = "done by ".toList ++ ("tomorrow".toList ++ ['.']) := by decide
  refine ⟨by decide +kernel, inside, lowercase, listed, parts, ?_⟩
  apply (read_spelled_day t "en" text o inside lowercase .dayWords listed parts).2.2
  · change ∀ v ∈ g.immediateWords, ∀ c ∈ v.toList, isAlphanumeric c
    rw [words]
    decide +kernel
  · decide +kernel
  · decide +kernel
  · decide +kernel

/-- An hour that no clock has takes the day with it. -/
theorem read_spelled_day_lost :
    ¬ ∀ (t : Table) (language text : String) (o : Options) (words : List String)
        (meaning : List Char → Option (List Char) → Meaning) (w : String)
        (before after : List Char), (ofTable t language).bounded → o.reference.date.Inside 14 →
      lower text = text → (ofTable t language).DayNames words meaning → w ∈ words →
      text.toList = before ++ (w.toList ++ after) →
      (∀ c ∈ before.getLast?, isAlphanumeric c = false) → Stops isAlphanumeric after →
      ∃ m found, (ofTable t language).grammar.read text o = .ok (m :: found) := by
  intro never_lost
  let t := Table.empty.insert "en" "today" "today"
  let g := ofTable t "en"
  let o := Options.plain ⟨⟨20742, by decide, by decide⟩, .midnight⟩ .monday
  have inside : o.reference.date.Inside 14 := by decide
  have room : o.HasRoom := Options.hasRoom_plain .monday inside
  have words : g.immediateWords = ["today"] := by decide +kernel
  have stated : g.rules.flatMap (g.statedSpans "today 25:00".toList o) = [] := by decide +kernel
  have nothing : g.grammar.read "today 25:00" o = .ok [] := by
    rw [read_eq_ok (matches?_eq_keptSpans fun rule listed =>
      staysOver_of_stays (stays_of_mem_rules room listed)), keptSpans, stated]
    simp [select, selectFrom]
  obtain ⟨m, found, reads⟩ := never_lost t "en" "today 25:00" o _ _ "today" [] " 25:00".toList
    (by decide +kernel) inside (by decide +kernel) .dayWords (by rw [words]; simp) (by decide)
    (by decide) (by decide +kernel)
  rw [nothing] at reads
  cases reads

end Reading

end Casual

end DatePhrase
