import DatePhrase.Proofs.Grammar.KeptTime
import DatePhrase.Proofs.Grammar.Selection

/-! The matches of a reading against all that the rules offer. A rule offers the delimited spans of its
own search that mean something; every such span takes at least a character, so places in the text
can be compared by characters or by bytes. Main statement: where no offer leaves the calendar, the
matches are the greedy choice among the offers, leftmost first, then longest, then by rule. -/
namespace DatePhrase
open Text Calendar

namespace Match

/-- Bytes up to the end of the span. -/
def stop (m : Match) : Nat := m.index + m.text.utf8ByteSize

/-- The spans share a part of the text. -/
def Overlaps (m n : Match) : Prop := m.index < n.stop ∧ n.index < m.stop

end Match

namespace Casual

section Bytes
variable {text : List Char} {i j : Nat}

theorem byteLength_append (s t : List Char) :
    byteLength (s ++ t) = byteLength s + byteLength t := by
  simp only [byteLength, String.ofList_append, String.utf8ByteSize_append]

theorem byteLength_pos (nonempty : text ≠ []) : 0 < byteLength text := by
  obtain ⟨c, text, rfl⟩ := List.exists_cons_of_ne_nil nonempty
  rw [← List.singleton_append, byteLength_append]
  have first : 0 < byteLength [c] := by
    simpa [byteLength] using c.utf8Size_pos
  omega

/-- More characters take more bytes. -/
theorem byteLength_take_lt (fewer : i < j) (inside : j ≤ text.length) :
    byteLength (text.take i) < byteLength (text.take j) := by
  have parts : text.take j = text.take i ++ (text.take j).drop i := by
    have same := List.take_append_drop i (text.take j)
    rwa [List.take_take, Nat.min_eq_left fewer.le, eq_comm] at same
  have more : (text.take j).drop i ≠ [] := by
    rw [← List.length_pos_iff, List.length_drop, List.length_take]
    omega
  rw [parts, byteLength_append]
  exact Nat.lt_add_of_pos_right (byteLength_pos more)

theorem byteLength_take_lt_iff (hi : i ≤ text.length) (hj : j ≤ text.length) :
    byteLength (text.take i) < byteLength (text.take j) ↔ i < j := by
  refine ⟨fun fewer => Nat.lt_of_not_le fun back => ?_, fun fewer => byteLength_take_lt fewer hj⟩
  rcases Nat.eq_or_lt_of_le back with rfl | before
  · exact Nat.lt_irrefl _ fewer
  · exact Nat.lt_asymm fewer (byteLength_take_lt before hi)

theorem byteLength_take_le_iff (hi : i ≤ text.length) (hj : j ≤ text.length) :
    byteLength (text.take i) ≤ byteLength (text.take j) ↔ i ≤ j := by
  rw [← Nat.not_lt, ← Nat.not_lt, byteLength_take_lt_iff hj hi]

end Bytes

section Offers
variable {g : Casual} {text : List Char} {o : Options} {rule : Rule} {s : Span Stated} {m : Match}

/-- The match is one that the search of the rule finds, delimited where that counts and with a
meaning. -/
def Offers (g : Casual) (rule : Rule) (text : List Char) (o : Options) (m : Match) : Prop :=
  ∃ span ∈ rule.scan text, g.isDelimited text span ∧ ∃ stated,
    span.value o = .ok (some stated) ∧ m = toMatch text ⟨span.start, span.text, stated⟩

theorem mem_statedSpans : s ∈ g.statedSpans text o rule ↔
    ∃ meaning : Meaning, ⟨s.start, s.text, meaning⟩ ∈ rule.scan text ∧
      g.isDelimited text s ∧ meaning o = .ok (some s.value) := by
  simp only [statedSpans, List.mem_filterMap, List.mem_filter, Option.map_eq_some_iff,
    stated?_eq_some_iff]
  constructor
  · rintro ⟨span, ⟨found, delimited⟩, stated, meant, rfl⟩
    exact ⟨span.value, found, delimited, meant⟩
  · rintro ⟨meaning, found, delimited, meant⟩
    exact ⟨_, ⟨found, delimited⟩, s.value, meant, rfl⟩

theorem offers_iff :
    g.Offers rule text o m ↔ ∃ s ∈ g.statedSpans text o rule, m = toMatch text s := by
  simp only [mem_statedSpans, Offers]
  constructor
  · rintro ⟨span, found, delimited, stated, meant, rfl⟩
    exact ⟨_, ⟨span.value, found, delimited, meant⟩, rfl⟩
  · rintro ⟨s, ⟨meaning, found, delimited, meant⟩, rfl⟩
    exact ⟨_, found, delimited, s.value, meant, rfl⟩

/-- The span has its text from the text, at the place that it says, and some of it. -/
structure Stands (text : List Char) (s : Span Stated) : Prop where
  parts : text = text.take s.start ++ (s.text ++ text.drop s.stop)
  inside : s.stop ≤ text.length
  nonempty : s.text ≠ []

theorem Stands.start_lt (stands : Stands text s) : s.start < s.stop :=
  Nat.lt_add_of_pos_right (List.length_pos_iff.2 stands.nonempty)

theorem Stands.start_le (stands : Stands text s) : s.start ≤ text.length :=
  stands.start_lt.le.trans stands.inside

/-- The bytes up to the end of a match are those of the characters up to the end of its span. -/
theorem Stands.stop_toMatch (stands : Stands text s) :
    (toMatch text s).stop = byteLength (text.take s.stop) := by
  have whole : text = (text.take s.start ++ s.text) ++ text.drop s.stop := by
    rw [List.append_assoc]
    exact stands.parts
  have front : text.take s.stop = text.take s.start ++ s.text := by
    rw [congrArg (List.take s.stop) whole]
    refine List.take_left' ?_
    rw [List.length_append, List.length_take_of_le stands.start_le, Span.stop]
  rw [front, byteLength_append]
  rfl

theorem advances_cutClock (g : Casual) : g.cutClock.Advances :=
  .or (.or
    (.bind (Cut.advances_oneTo _ _) fun _ =>
      .bind (.optional (.bind (Cut.forward_char _) fun _ => Cut.forward_exactly _ _)) fun _ =>
      .bind (Cut.forward_many _) fun _ => .bind (Cut.forward_oneOf _) fun _ => Cut.forward_pure _)
    (.bind (Cut.advances_oneTo _ _) fun _ => .bind (Cut.forward_char _) fun _ =>
      .bind (Cut.forward_exactly _ _) fun _ => Cut.forward_pure _))
    (.bind (Cut.advances_oneTo _ _) fun _ => .bind (Cut.forward_many _) fun _ =>
      .bind (Cut.forward_oneOf _) fun _ =>
      .bind (.optional (.bind (Cut.forward_many _) fun _ => Cut.forward_exactly _ _)) fun _ =>
      .bind (.optional (.bind (Cut.forward_many _) fun _ => Cut.forward_oneOf _)) fun _ =>
      Cut.forward_pure _)

/-- Every rule begins with a digit or with a word, and no word of a table is empty. -/
theorem advances_of_mem_rules {t : Table} {language : String}
    (listed : rule ∈ (ofTable t language).rules) : Cut.Advances rule := by
  have words : ∀ l : List String, (Cut.oneOf (Vocabulary.arrange l)).Advances := fun l =>
    Cut.advances_oneOf fun _ member => (Vocabulary.mem_arrange.1 member).2
  simp only [rules, List.mem_cons, List.not_mem_nil, or_false] at listed
  rcases listed with rfl | rfl | rfl | rfl | rfl | rfl | rfl
  · exact .bind (Cut.advances_exactly 3 _) fun _ => .bind (Cut.forward_char _) fun _ =>
      .bind (Cut.forward_oneTo _ _) fun _ => .bind (Cut.forward_char _) fun _ =>
      .bind (Cut.forward_oneTo _ _) fun _ => Cut.forward_pure _
  · exact .bind (words _) fun _ => .bind (forward_cutTrailing _) fun _ => Cut.forward_pure _
  · exact .bind (words _) fun _ => .bind (forward_cutTrailing _) fun _ => Cut.forward_pure _
  · exact .bind (words _) fun _ => .bind (forward_cutSpace _) fun _ =>
      .bind (Cut.forward_oneTo _ _) fun _ => .bind (Cut.forward_many _) fun _ =>
      .bind (Cut.forward_oneOf _) fun _ => .bind (forward_cutTrailing _) fun _ => Cut.forward_pure _
  · exact .bind (words _) fun _ => .bind (forward_cutSpace _) fun _ =>
      .bind (Cut.forward_oneOf _) fun _ => Cut.forward_pure _
  · exact .bind (Cut.advances_oneTo _ _) fun _ => .bind (Cut.forward_oneOf _) fun _ =>
      Cut.forward_pure _
  · rw [timeRule_eq]
    exact .bind ((advances_cutClock _).taken (forward_cutClock _)) fun _ => Cut.forward_pure _

/-- Every span that a rule of a table's language states stands in the text. -/
theorem stands_of_mem_statedSpans {t : Table} {language : String}
    (listed : rule ∈ (ofTable t language).rules)
    (found : s ∈ (ofTable t language).statedSpans text o rule) : Stands text s := by
  obtain ⟨meaning, scanned, -, -⟩ := mem_statedSpans.1 found
  obtain ⟨before, after, parts, (place : before.length = s.start), -, read⟩ :=
    Cut.exists_of_mem_scan (forward_of_mem_rules listed) scanned
  have longer := advances_of_mem_rules listed _ _ _ read
  have total := congrArg List.length parts
  simp only [List.length_append] at longer total
  have front : text.take s.start = before := by
    rw [parts, ← place]
    exact List.take_left
  have back : text.drop s.stop = after := by
    rw [parts, ← List.append_assoc, Span.stop, ← place, ← List.length_append]
    exact List.drop_left
  refine ⟨by rw [front, back]; exact parts, by rw [Span.stop]; omega, ?_⟩
  rw [← List.length_pos_iff]
  omega

end Offers

section Ranks
variable {g : Casual} {text : List Char} {o : Options}

/-- All stated spans, each with the place of its rule. -/
def rankedSpans (g : Casual) (text : List Char) (o : Options) : List (Nat × Span Stated) :=
  g.rules.zipIdx.flatMap fun (rule, i) => (g.statedSpans text o rule).map (i, ·)

theorem mem_rankedSpans {i : Nat} {s : Span Stated} : (i, s) ∈ g.rankedSpans text o ↔
    ∃ rule, g.rules[i]? = some rule ∧ s ∈ g.statedSpans text o rule := by
  simp only [rankedSpans, List.mem_flatMap, List.mem_map, Prod.exists, Prod.mk.injEq,
    List.mk_mem_zipIdx_iff_getElem?]
  constructor
  · rintro ⟨rule, j, place, s, found, rfl, rfl⟩
    exact ⟨rule, place, found⟩
  · rintro ⟨rule, place, found⟩
    exact ⟨rule, i, place, s, found, rfl, rfl⟩

theorem map_rankedSpans :
    (g.rankedSpans text o).map (·.2) = g.rules.flatMap (g.statedSpans text o) := by
  have each : ∀ (rules : List Rule) (k : Nat),
      ((rules.zipIdx k).flatMap fun (rule, i) => (g.statedSpans text o rule).map (i, ·)).map
        (·.2) = rules.flatMap (g.statedSpans text o) := by
    intro rules
    induction rules with
    | nil => exact fun _ => rfl
    | cons rule rules ih => intro k; simp [List.zipIdx_cons, ih, Function.comp_def]
  exact each g.rules 0

/-- The spans of an earlier rule come first. -/
theorem pairwise_rankedSpans : (g.rankedSpans text o).Pairwise fun a b => a.1 ≤ b.1 := by
  have places : g.rules.zipIdx.Pairwise fun a b => a.2 < b.2 := by
    rw [← List.pairwise_map (f := Prod.snd), List.zipIdx_map_snd]
    exact List.pairwise_lt_range'
  rw [rankedSpans, List.pairwise_flatMap]
  refine ⟨fun a _ => ?_, places.imp fun {a b} before x hx y hy => ?_⟩
  · rw [List.pairwise_map]
    exact List.pairwise_of_forall fun _ _ => Nat.le_refl _
  · obtain ⟨s, -, rfl⟩ := List.mem_map.1 hx
    obtain ⟨r, -, rfl⟩ := List.mem_map.1 hy
    exact before.le

/-- The spans that a reading keeps, where it stays in the calendar. -/
def keptSpans (g : Casual) (text : List Char) (o : Options) : List (Span Stated) :=
  select (g.rules.flatMap (g.statedSpans text o))

theorem matches?_eq_keptSpans (stays : ∀ rule ∈ g.rules, g.StaysOver text o rule) :
    g.matches? text o = .ok ((g.keptSpans text o).map (toMatch text)) := by
  rw [matches?, candidates_eq_ok stays]
  rfl

theorem exists_rule_of_mem_keptSpans {s : Span Stated} (kept : s ∈ g.keptSpans text o) :
    ∃ rule ∈ g.rules, s ∈ g.statedSpans text o rule :=
  List.mem_flatMap.1 (List.mem_mergeSort.1 (mem_of_mem_selectFrom kept))

theorem exists_offers_of_mem {m : Match} (found : m ∈ (g.keptSpans text o).map (toMatch text)) :
    ∃ rule ∈ g.rules, g.Offers rule text o m := by
  obtain ⟨s, kept, rfl⟩ := List.mem_map.1 found
  obtain ⟨rule, listed, stated⟩ := exists_rule_of_mem_keptSpans kept
  exact ⟨rule, listed, offers_iff.2 ⟨s, stated, rfl⟩⟩

/-- A kept span comes first of all stated spans behind those kept before it. -/
theorem precedes_of_keptSpans
    (stand : ∀ rule ∈ g.rules, ∀ s ∈ g.statedSpans text o rule, Stands text s)
    {before after : List (Span Stated)} {s : Span Stated}
    (kept : g.keptSpans text o = before ++ s :: after) :
    ∃ i, (i, s) ∈ g.rankedSpans text o ∧ ∀ b ∈ g.rankedSpans text o,
      (∀ p ∈ before, p.stop ≤ b.2.start) → Precedes (i, s) b := by
  let order : Nat × Span Stated → Nat × Span Stated → Bool := fun a b => leads a.2 b.2
  have sorted : ((g.rankedSpans text o).mergeSort order).Pairwise Precedes :=
    pairwise_mergeSort_stable (fun a b c => leads_trans a.2 b.2 c.2)
      (fun a b => leads_total a.2 b.2) pairwise_rankedSpans
  have spans : ((g.rankedSpans text o).mergeSort order).map (·.2) =
      (g.rules.flatMap (g.statedSpans text o)).mergeSort leads := by
    rw [List.map_mergeSort (s := leads) fun _ _ _ _ => rfl, map_rankedSpans]
  have nonempty : ∀ b ∈ (g.rankedSpans text o).mergeSort order, b.2.text ≠ [] := by
    rintro ⟨j, r⟩ listed
    obtain ⟨rule, place, found⟩ := mem_rankedSpans.1 (List.mem_mergeSort.1 listed)
    exact (stand rule (List.mem_of_getElem? place) r found).nonempty
  rw [keptSpans, select, ← spans] at kept
  obtain ⟨i, listed, first⟩ := precedes_of_selectFrom sorted nonempty kept
  exact ⟨i, List.mem_mergeSort.1 listed, fun b hb clear =>
    first b (List.mem_mergeSort.2 hb) (Nat.zero_le _) clear⟩

end Ranks

section Greedy
variable {g : Casual} {text : List Char} {o : Options}

/-- The match stands in the text, behind as many bytes as it says; where the language has word
boundaries no letter or number touches it. -/
def IsPlaced (g : Casual) (text : List Char) (m : Match) : Prop :=
  ∃ before after, text = before ++ (m.text.toList ++ after) ∧ m.index = byteLength before ∧
    (g.bounded → ∀ c, before.getLast? = some c ∨ after.head? = some c → isAlphanumeric c = false)

/-- Of all that the rules offer behind some matches, this one of the rule at `i` starts first, is
the longest of those that start there, and is of the earliest rule among equals. -/
def IsBestBehind (g : Casual) (text : List Char) (o : Options) (before : List Match) (i : Nat)
    (m : Match) : Prop :=
  ∀ j other n, g.rules[j]? = some other → g.Offers other text o n →
    (∀ p ∈ before, p.stop ≤ n.index) →
    m.index ≤ n.index ∧ (n.index = m.index → n.stop ≤ m.stop ∧ (n.stop = m.stop → i ≤ j))

/-- The greedy choice among the matches that the rules offer. -/
structure IsGreedy (g : Casual) (text : List Char) (o : Options) (found : List Match) : Prop where
  placed : ∀ m ∈ found, g.IsPlaced text m
  apart : found.Pairwise fun m n => m.index < n.index ∧ m.stop ≤ n.index
  best : ∀ before m after, found = before ++ m :: after → ∃ i rule, g.rules[i]? = some rule ∧
    g.Offers rule text o m ∧ g.IsBestBehind text o before i m
  overlapped : ∀ rule ∈ g.rules, ∀ n, g.Offers rule text o n →
    n ∈ found ∨ ∃ m ∈ found, m.Overlaps n

theorem isPlaced_toMatch {rule : Rule} {s : Span Stated} (stands : Stands text s)
    (stated : s ∈ g.statedSpans text o rule) : g.IsPlaced text (toMatch text s) := by
  refine ⟨text.take s.start, text.drop s.stop, ?_, rfl, fun bounded c touches => ?_⟩
  · rw [toMatch, String.toList_ofList]
    exact stands.parts
  · obtain ⟨meaning, -, delimited, -⟩ := mem_statedSpans.1 stated
    simp only [isDelimited, bounded, Bool.not_true, Bool.false_or, Bool.not_eq_true',
      Bool.or_eq_false_iff, Option.any_eq_false] at delimited
    rcases touches with last | first
    · simpa using delimited.1 c last
    · simpa using delimited.2 c first

variable (stand : ∀ rule ∈ g.rules, ∀ s ∈ g.statedSpans text o rule, Stands text s)
include stand

theorem stands_of_mem_keptSpans {s : Span Stated} (kept : s ∈ g.keptSpans text o) :
    Stands text s := by
  obtain ⟨rule, listed, stated⟩ := exists_rule_of_mem_keptSpans kept
  exact stand rule listed s stated

theorem pairwise_keptSpans : ((g.keptSpans text o).map (toMatch text)).Pairwise fun m n =>
    m.index < n.index ∧ m.stop ≤ n.index := by
  rw [List.pairwise_map]
  refine pairwise_selectFrom.imp_of_mem fun {s r} hs hr apart => ?_
  have left := stands_of_mem_keptSpans stand hs
  have right := stands_of_mem_keptSpans stand hr
  rw [left.stop_toMatch]
  exact ⟨byteLength_take_lt (left.start_lt.trans_le apart) right.start_le,
    (byteLength_take_le_iff left.inside right.start_le).2 apart⟩

theorem isBestBehind_of_precedes {before : List (Span Stated)} {i : Nat} {s : Span Stated}
    (kept : ∀ p ∈ before, p ∈ g.keptSpans text o) (stands : Stands text s)
    (first : ∀ b ∈ g.rankedSpans text o, (∀ p ∈ before, p.stop ≤ b.2.start) → Precedes (i, s) b) :
    g.IsBestBehind text o (before.map (toMatch text)) i (toMatch text s) := by
  intro j other n place offered clear
  obtain ⟨r, stated, rfl⟩ := offers_iff.1 offered
  have stands' := stand other (List.mem_of_getElem? place) r stated
  have clear' : ∀ p ∈ before, p.stop ≤ r.start := fun p hp => by
    have left := stands_of_mem_keptSpans stand (kept p hp)
    have ends := clear (toMatch text p) (List.mem_map_of_mem hp)
    rw [left.stop_toMatch] at ends
    exact (byteLength_take_le_iff left.inside stands'.start_le).1 ends
  obtain ⟨leading, tied⟩ := first (j, r) (mem_rankedSpans.2 ⟨other, place, stated⟩) clear'
  simp only [leads_iff] at leading tied
  rw [stands.stop_toMatch, stands'.stop_toMatch]
  have starts : s.start ≤ r.start := by omega
  refine ⟨(byteLength_take_le_iff stands.start_le stands'.start_le).2 starts, fun same => ?_⟩
  have back := (byteLength_take_le_iff stands'.start_le stands.start_le).1 same.le
  refine ⟨(byteLength_take_le_iff stands'.inside stands.inside).2 ?_, fun equal => tied ?_⟩
  · simp only [Span.stop]
    omega
  · have longer := (byteLength_take_le_iff stands.inside stands'.inside).1 equal.ge
    simp only [Span.stop] at longer
    omega

/-- Every offer is kept or overlaps a match that is. -/
theorem mem_or_overlaps {rule : Rule} (listed : rule ∈ g.rules) {n : Match}
    (offered : g.Offers rule text o n) : n ∈ (g.keptSpans text o).map (toMatch text) ∨
      ∃ m ∈ (g.keptSpans text o).map (toMatch text), m.Overlaps n := by
  obtain ⟨r, stated, rfl⟩ := offers_iff.1 offered
  have stands := stand rule listed r stated
  have sorted := (List.pairwise_mergeSort leads_trans leads_total
    (g.rules.flatMap (g.statedSpans text o))).imp fun {s r} first => show s.start ≤ r.start by
      rw [leads_iff] at first
      omega
  have member : r ∈ (g.rules.flatMap (g.statedSpans text o)).mergeSort leads :=
    List.mem_mergeSort.2 (List.mem_flatMap.2 ⟨rule, listed, stated⟩)
  rcases mem_or_covered sorted member (Nat.zero_le _) with kept | ⟨s, kept, starts, reaches⟩
  · exact .inl (List.mem_map_of_mem kept)
  · have left := stands_of_mem_keptSpans stand kept
    refine .inr ⟨_, List.mem_map_of_mem kept, ?_, ?_⟩
    · rw [stands.stop_toMatch]
      exact byteLength_take_lt (Nat.lt_of_le_of_lt starts stands.start_lt) stands.inside
    · rw [left.stop_toMatch]
      exact byteLength_take_lt reaches left.inside

theorem isGreedy_keptSpans : g.IsGreedy text o ((g.keptSpans text o).map (toMatch text)) where
  placed m hm := by
    obtain ⟨s, kept, rfl⟩ := List.mem_map.1 hm
    obtain ⟨rule, -, stated⟩ := exists_rule_of_mem_keptSpans kept
    exact isPlaced_toMatch (stands_of_mem_keptSpans stand kept) stated
  apart := pairwise_keptSpans stand
  best before m after split := by
    obtain ⟨front, back, spans, rfl, tail⟩ := List.map_eq_append_iff.1 split
    obtain ⟨s, rest, rfl, rfl, rfl⟩ := List.map_eq_cons_iff.1 tail
    obtain ⟨i, ranked, first⟩ := precedes_of_keptSpans stand spans
    obtain ⟨rule, place, stated⟩ := mem_rankedSpans.1 ranked
    refine ⟨i, rule, place, offers_iff.2 ⟨s, stated, rfl⟩,
      isBestBehind_of_precedes stand (fun p hp => ?_)
        (stand rule (List.mem_of_getElem? place) s stated) first⟩
    rw [spans]
    exact List.mem_append_left _ hp
  overlapped rule listed n offered := mem_or_overlaps stand listed offered

omit stand

/-- Where nothing that the rules find leaves the calendar, the grammar of a language returns the
greedy choice: matches at their places in the order of the text, none of which overlaps another or
cuts a word, each the leftmost and then the longest of all offers behind the ones before it, and no
offer left out without overlapping one of them. -/
theorem read_isGreedy (t : Table) (language text : String) (o : Options)
    (stays : ∀ rule ∈ (ofTable t language).rules,
      (ofTable t language).StaysOver text.toList o rule) :
    ∃ found, (ofTable t language).grammar.read text o = .ok found ∧
      (ofTable t language).IsGreedy text.toList o found :=
  ⟨_, read_eq_ok (matches?_eq_keptSpans stays),
    isGreedy_keptSpans fun _ listed _ stated => stands_of_mem_statedSpans listed stated⟩

/-- A word for both today and Monday means today, and the time inside that match is not another. -/
theorem read_isGreedy_tied :
    let words := [("today", "lundi"), ("monday", "lundi"), ("at", "à"), ("hourSuffix", "h")]
    let t := words.foldl (fun t (key, word) => t.insert "fr" key word) Table.empty
    let text := "été 3h, lundi à 3h"
    let friday : Instant := ⟨⟨20742, by decide, by decide⟩, ⟨2 * nanosPerHour, by decide, false⟩⟩
    let three : Instant := ⟨friday.date, ⟨3 * nanosPerHour, by decide, false⟩⟩
    let o : Options := ⟨friday, true, .monday⟩
    let g := ofTable t "fr"
    let found : List Match :=
      [⟨6, "3h", three, .clock⟩, ⟨10, "lundi à 3h", three, Certainty.calendarDay.withClock⟩]
    (∀ rule ∈ g.rules, g.StaysOver text.toList o rule) ∧
      g.grammar.read text o = .ok found ∧ g.IsGreedy text.toList o found := by
  intro words t text friday three o g found
  let monday : Instant := ⟨⟨20745, by decide, by decide⟩, three.time⟩
  have room : o.HasRoom := ⟨by decide, by decide, fun _ => by decide⟩
  have stays : ∀ rule ∈ g.rules, g.StaysOver text.toList o rule := fun rule listed =>
    staysOver_of_stays (stays_of_mem_rules room listed)
  have stated : g.rules.flatMap (g.statedSpans text.toList o) =
      [⟨8, "lundi à 3h".toList, three, Certainty.calendarDay.withClock⟩,
        ⟨8, "lundi à 3h".toList, monday, (Certainty.ofList [.weekday]).withClock⟩,
        ⟨4, "3h".toList, three, .clock⟩, ⟨16, "3h".toList, three, .clock⟩] := by decide +kernel
  have kept : g.keptSpans text.toList o = [⟨4, "3h".toList, three, .clock⟩,
      ⟨8, "lundi à 3h".toList, three, Certainty.calendarDay.withClock⟩] := by
    rw [keptSpans, stated]
    simp [select, List.mergeSort, leads, selectFrom, Span.stop]
  have read : g.grammar.read text o = .ok found := by
    rw [read_eq_ok (matches?_eq_keptSpans stays), kept]
    decide +kernel
  obtain ⟨found', read', greedy⟩ := read_isGreedy t "fr" text o stays
  obtain rfl : found = found' := Except.ok.inj (read.symm.trans read')
  exact ⟨stays, read, greedy⟩

end Greedy

end Casual

end DatePhrase
