import DatePhrase.Proofs.Text.Preferred
import DatePhrase.Vocabulary.Alternation

/-! Search patterns as texts. A pattern is a row of signs; a character with a meaning of its own is
the literal sign for itself only behind a backslash. The signs put together say which fronts of a
text the pattern takes and in which order it tries them. Main statements: a pattern made of words has
the signs of the words with bars between them, and it tries these words in their order, in a text of
whichever cases. -/
namespace DatePhrase
open Text

theorem Text.Cut.or_fail {α : Type} (c : Cut α) : c.or .fail = c :=
  funext fun s => List.append_nil (c s)

namespace Vocabulary
variable {words : List String} {p : String}

theorem pattern?_eq_none_iff : pattern? words = none ↔ words = [] := by
  cases words <;> simp [pattern?]

theorem gapPattern?_eq_none_iff {spaced touching : List String} :
    gapPattern? spaced touching = none ↔ spaced = [] ∧ touching = [] := by
  cases spaced <;> cases touching <;> simp [gapPattern?, pattern?]

theorem ne_nil_of_pattern? (made : pattern? words = some p) : words ≠ [] := by
  rintro rfl
  cases made

end Vocabulary

/-- The signs that search patterns are written with. -/
inductive Sign where
  | literal (c : Char)
  | bar
  | opens
  | closes
  /-- Any number of blanks. -/
  | blanks
  /-- At least one blank. -/
  | gap
  deriving DecidableEq

namespace Sign
variable {s : List Char} {c : Char} {words : List String}

/-- The characters that are no literal without a backslash. -/
def meaningful : List Char :=
  ['\\', '.', '+', '*', '?', '(', ')', '|', '[', ']', '\x7b', '\x7d', '^', '$', '#', '&', '-', '~']

/-- The signs of a pattern. A pattern with a sign of another kind has none. -/
def read? : List Char → Option (List Sign)
  | [] => some []
  | '\\' :: 's' :: '*' :: s => (blanks :: ·) <$> read? s
  | '\\' :: 's' :: '+' :: s => (gap :: ·) <$> read? s
  | '\\' :: c :: s => if c ∈ meaningful then (literal c :: ·) <$> read? s else none
  | '(' :: '?' :: ':' :: s => (opens :: ·) <$> read? s
  | ')' :: s => (closes :: ·) <$> read? s
  | '|' :: s => (bar :: ·) <$> read? s
  | c :: s => if c ∈ meaningful then none else (literal c :: ·) <$> read? s

/-- The signs of a word, each letter for itself. -/
def ofWord (w : String) : List Sign := w.toList.map literal

/-- The signs of words, one word behind the other. -/
def ofWords (words : List String) : List Sign := [bar].intercalate (words.map ofWord)

/-- The signs of a group of words and of what stands behind it. -/
def grouped (words : List String) (behind : Sign) : List Sign :=
  opens :: (ofWords words ++ [closes, behind])

theorem read?_plain (plain : c ∉ meaningful) : read? (c :: s) = (literal c :: ·) <$> read? s := by
  rw [read?, if_neg plain]
  all_goals
    intros
    subst_vars
    exact plain (by decide)

theorem read?_escaped (meaning : c ∈ meaningful) :
    read? ('\\' :: c :: s) = (literal c :: ·) <$> read? s := by
  have letter : c ≠ 's' := by
    rintro rfl
    exact absurd meaning (by decide)
  rw [read?, if_pos meaning] <;> simp [letter]

/-- A literal with a meaning of its own stands behind a backslash. -/
theorem infix_of_read? {signs : List Sign} (read : read? s = some signs)
    (listed : literal c ∈ signs) (meaning : c ∈ meaningful) : ['\\', c] <:+: s := by
  fun_induction read? s generalizing signs with
  | case1 => cases (Option.some.inj read ▸ listed : literal c ∈ [])
  | case5 | case9 => cases read
  | case2 s ih | case3 s ih | case6 s ih =>
    obtain ⟨signs, read', rfl⟩ := Option.map_eq_some_iff.1 read
    have later := ih read' (by simpa using listed)
    exact List.infix_cons (List.infix_cons (List.infix_cons later))
  | case7 s ih | case8 s ih =>
    obtain ⟨signs, read', rfl⟩ := Option.map_eq_some_iff.1 read
    exact List.infix_cons (ih read' (by simpa using listed))
  | case4 d s _ _ _ ih =>
    obtain ⟨signs, read', rfl⟩ := Option.map_eq_some_iff.1 read
    rcases List.mem_cons.1 listed with same | later
    · cases same
      exact ⟨[], s, rfl⟩
    · exact List.infix_cons (List.infix_cons (ih read' later))
  | case10 d s _ _ _ _ _ _ plain ih =>
    obtain ⟨signs, read', rfl⟩ := Option.map_eq_some_iff.1 read
    rcases List.mem_cons.1 listed with same | later
    · cases same
      exact absurd meaning plain
    · exact List.infix_cons (ih read' later)

theorem read?_escape (w : String) (s : List Char) :
    read? ((Vocabulary.escape w).toList ++ s) = (ofWord w ++ ·) <$> read? s := by
  have known : Vocabulary.metacharacters = meaningful := by decide +kernel
  rw [Vocabulary.escape, String.toList_ofList, known, ofWord]
  induction w.toList with
  | nil => simp
  | cons c w ih =>
    rw [List.flatMap_cons, List.append_assoc]
    by_cases meaning : c ∈ meaningful
    · simp [if_pos meaning, read?_escaped meaning, ih, Function.comp_def]
    · simp [if_neg meaning, read?_plain meaning, ih, Function.comp_def]

theorem read?_intercalate (w : String) (words : List String) (s : List Char) :
    read? (['|'].intercalate ((w :: words).map fun w => (Vocabulary.escape w).toList) ++ s) =
      (ofWords (w :: words) ++ ·) <$> read? s := by
  induction words generalizing w with
  | nil => simpa [ofWords] using read?_escape w s
  | cons v words ih =>
    have others := ih v
    simp only [ofWords, List.map_cons, List.intercalate_cons_cons, List.append_assoc] at others ⊢
    rw [read?_escape, List.singleton_append, read?, others]
    simp [Function.comp_def]

/-- The pattern of words has the signs of the words, with bars between them. -/
theorem read?_pattern? {p : String} (made : Vocabulary.pattern? words = some p) (s : List Char) :
    read? (p.toList ++ s) = (ofWords words ++ ·) <$> read? s := by
  cases words with
  | nil => cases made
  | cons w words =>
    rw [← Option.some.inj made, String.toList_intercalate, List.map_map]
    exact read?_intercalate w words s

theorem read?_of_pattern? {p : String} (made : Vocabulary.pattern? words = some p) :
    read? p.toList = some (ofWords words) := by
  simpa [read?] using read?_pattern? made []

/-- Cut at its bars a row of words gives back the words. -/
theorem splitOn_ofWords (nonempty : words ≠ []) :
    (ofWords words).splitOn bar = words.map ofWord := by
  refine List.splitOn_intercalate bar ?_ (by simpa using nonempty)
  simp [ofWord]

theorem literal_mem_ofWords {w : String} (listed : w ∈ words) (letter : c ∈ w.toList) :
    literal c ∈ ofWords words := by
  induction words with
  | nil => cases listed
  | cons v words ih =>
    cases words with
    | nil =>
      obtain rfl := List.mem_singleton.1 listed
      simpa [ofWords, ofWord] using letter
    | cons u words =>
      simp only [ofWords, List.map_cons, List.intercalate_cons_cons, List.mem_append] at ih ⊢
      rcases List.mem_cons.1 listed with rfl | later
      · exact .inl (.inl (List.mem_map_of_mem letter))
      · exact .inr (ih later)

theorem ofWord_injective : Function.Injective ofWord := by
  intro v w same
  refine String.toList_inj.1 ((List.map_inj_right fun c d same => ?_).1 same)
  cases same
  rfl

end Sign

/-- Signs put together. -/
inductive SearchPattern where
  | empty
  | literal (c : Char)
  | blanks
  | gap
  | seq (first second : SearchPattern)
  | either (first second : SearchPattern)

namespace SearchPattern

/-- The fronts of a text that the pattern takes, in the order in which they are tried. -/
def cut (same : Char → Char → Bool) : SearchPattern → Cut (List Char)
  | empty => pure []
  | literal c => (fun d => [d]) <$> .char (same c)
  | blanks => .many isBlank
  | gap => .atLeastOne isBlank
  | seq p q => do
    let first ← p.cut same
    let second ← q.cut same
    return first ++ second
  | either p q => (p.cut same).or (q.cut same)

/-- What stands in a group so far: the alternatives behind which a bar stands, and the last one. -/
structure Group where
  tried : Option SearchPattern
  last : SearchPattern

namespace Group

def start : Group := ⟨none, empty⟩

def whole (g : Group) : SearchPattern :=
  match g.tried with
  | none => g.last
  | some p => either p g.last

def add (g : Group) (p : SearchPattern) : Group := { g with last := seq g.last p }

end Group

/-- Puts signs together, behind what stands in the group that they go on with and in the open groups
around it. -/
def build? : List Sign → Group → List Group → Option SearchPattern
  | [], g, [] => some g.whole
  | [], _, _ :: _ => none
  | .literal c :: signs, g, outer => build? signs (g.add (literal c)) outer
  | .blanks :: signs, g, outer => build? signs (g.add blanks) outer
  | .gap :: signs, g, outer => build? signs (g.add gap) outer
  | .bar :: signs, g, outer => build? signs ⟨some g.whole, empty⟩ outer
  | .opens :: signs, g, outer => build? signs .start (g :: outer)
  | .closes :: signs, g, h :: outer => build? signs (h.add g.whole) outer
  | .closes :: _, _, [] => none

def read? (pattern : String) : Option SearchPattern := do
  let signs ← Sign.read? pattern.toList
  build? signs .start []

variable {same : Char → Char → Bool} {words : List String}

/-- The letters of a word, one by one. -/
def spelled (same : Char → Char → Bool) : List Char → Cut (List Char)
  | [] => pure []
  | a :: w => do
    let c ← .char (same a)
    let more ← spelled same w
    return c :: more

/-- One of some words, tried in their order. -/
def anyOf (same : Char → Char → Bool) (words : List String) : Cut (List Char) := fun s =>
  words.flatMap fun w => spelled same w.toList s

theorem spelled_sameLetter (w : List Char) : spelled sameLetter w = Cut.letters w := by
  induction w with
  | nil => rfl
  | cons a w ih =>
    funext s
    cases s with
    | nil => rfl
    | cons c s =>
      by_cases alike : sameLetter a c <;>
        simp [spelled, ih, Cut.letters, Cut.char, alike, Bind.bind, pure, List.map_eq_flatMap]

theorem anyOf_sameLetter (words : List String) : anyOf sameLetter words = Cut.oneOf words := by
  funext s
  simp only [anyOf, spelled_sameLetter]
  rfl

/-- Letter by letter a word takes itself, where the text begins with it. -/
theorem spelled_beq (w s : List Char) : spelled (· == ·) w s =
    if w.isPrefixOf s then [(w, s.drop w.length)] else [] := by
  induction w generalizing s with
  | nil => rfl
  | cons a w ih =>
    cases s with
    | nil => rfl
    | cons c s =>
      by_cases alike : a = c
      · subst alike
        simp only [spelled, Bind.bind, Cut.char, beq_self_eq_true, if_true, List.flatMap_cons, ih,
          List.isPrefixOf_cons_cons, Bool.true_and]
        split <;> rfl
      · simp [spelled, Bind.bind, Cut.char, alike]

/-- Letters put to the end of a pattern are tried behind what it takes. -/
theorem cut_foldl (p : SearchPattern) (w : List Char) :
    (w.foldl (fun p c => seq p (literal c)) p).cut same = do
      let front ← p.cut same
      let more ← spelled same w
      return front ++ more := by
  induction w generalizing p with
  | nil => simp [spelled]
  | cons c w ih =>
    simp only [List.foldl_cons, ih, cut, spelled, map_eq_pure_bind, bind_assoc, pure_bind,
      List.append_assoc, List.singleton_append]

theorem build?_word (w : String) (signs : List Sign) (g : Group) (outer : List Group) :
    build? (Sign.ofWord w ++ signs) g outer =
      build? signs { g with last := w.toList.foldl (fun p c => seq p (literal c)) g.last }
        outer := by
  rw [Sign.ofWord]
  induction w.toList generalizing g with
  | nil => rfl
  | cons c w ih => exact ih (g.add (literal c))

namespace Group

/-- What is tried before the last alternative of a group. -/
def before (same : Char → Char → Bool) (tried : Option SearchPattern) : Cut (List Char) :=
  (tried.map (cut same)).getD .fail

theorem cut_whole (g : Group) : g.whole.cut same = (before same g.tried).or (g.last.cut same) := by
  obtain ⟨tried, last⟩ := g
  cases tried <;> rfl

end Group

/-- Behind the alternatives of a group its words are tried. -/
theorem build?_words (nonempty : words ≠ []) (signs : List Sign) (tried : Option SearchPattern)
    (outer : List Group) :
    ∃ g : Group, build? (Sign.ofWords words ++ signs) ⟨tried, empty⟩ outer = build? signs g outer ∧
      ∀ same, g.whole.cut same = (Group.before same tried).or (anyOf same words) := by
  induction words generalizing tried with
  | nil => exact absurd rfl nonempty
  | cons w words ih =>
    let g : Group := ⟨tried, w.toList.foldl (fun p c => seq p (literal c)) empty⟩
    have first : ∀ same, g.whole.cut same =
        (Group.before same tried).or (spelled same w.toList) := by
      intro same
      rw [g.cut_whole, cut_foldl]
      simp [cut, g]
    cases words with
    | nil =>
      refine ⟨g, ?_, fun same => ?_⟩
      · simpa [Sign.ofWords] using build?_word w signs ⟨tried, empty⟩ outer
      · funext s
        simp [first, Cut.or, anyOf]
    | cons v words =>
      obtain ⟨h, built, others⟩ := ih (List.cons_ne_nil v words) (some g.whole)
      refine ⟨h, ?_, fun same => ?_⟩
      · simp only [Sign.ofWords, List.map_cons, List.intercalate_cons_cons, List.append_assoc,
          build?_word, List.singleton_append] at built ⊢
        exact built
      · funext s
        simp [others, first, Group.before, Cut.or, anyOf]

/-- A pattern made of words tries the words in their order. -/
theorem read?_pattern? {pattern : String} (made : Vocabulary.pattern? words = some pattern) :
    ∃ p, read? pattern = some p ∧ ∀ same, p.cut same = anyOf same words := by
  have nonempty := Vocabulary.ne_nil_of_pattern? made
  obtain ⟨g, built, cut⟩ := build?_words nonempty [] none []
  refine ⟨g.whole, ?_, cut⟩
  rw [List.append_nil] at built
  rw [read?, Sign.read?_of_pattern? made]
  exact built

/-- One of some words and what stands behind it. -/
def wordThen (same : Char → Char → Bool) (words : List String) (behind : SearchPattern) :
    Cut (List Char) := do
  let word ← anyOf same words
  let more ← behind.cut same
  return word ++ more

theorem wordThen_nil (behind : SearchPattern) : wordThen same [] behind = .fail := rfl

/-- How a group of words ends, with the sign for the blanks behind it and what that stands for. -/
inductive Ending : String → Sign → SearchPattern → Prop where
  | gap : Ending ")\\s+" .gap gap
  | blanks : Ending ")\\s*" .blanks blanks

section Ending
variable {ending : String} {sign : Sign} {behind : SearchPattern} {p : String}

theorem Ending.read?_grouped (ends : Ending ending sign behind)
    (made : Vocabulary.pattern? words = some p) (s : List Char) :
    Sign.read? (("(?:" ++ p ++ ending).toList ++ s) =
      (Sign.grouped words sign ++ ·) <$> Sign.read? s := by
  have begins : "(?:".toList = ['(', '?', ':'] := rfl
  have last : Sign.read? (ending.toList ++ s) = (.closes :: sign :: ·) <$> Sign.read? s := by
    cases ends with
    | gap =>
      have text : ")\\s+".toList = [')', '\\', 's', '+'] := rfl
      simp [text, Sign.read?, Function.comp_def]
    | blanks =>
      have text : ")\\s*".toList = [')', '\\', 's', '*'] := rfl
      simp [text, Sign.read?, Function.comp_def]
  simp [String.toList_append, begins, Sign.read?, Sign.read?_pattern? made, last, Sign.grouped,
    Function.comp_def]

theorem Ending.read?_of_grouped (ends : Ending ending sign behind)
    (made : Vocabulary.pattern? words = some p) :
    Sign.read? ("(?:" ++ p ++ ending).toList = some (Sign.grouped words sign) := by
  simpa [Sign.read?] using ends.read?_grouped made []

/-- Behind the alternatives of a pattern a group of words and the blanks behind it are tried. -/
theorem Ending.build?_grouped (ends : Ending ending sign behind) (nonempty : words ≠ [])
    (tried : Option SearchPattern) (signs : List Sign) :
    ∃ g : Group, build? (Sign.grouped words sign ++ signs) ⟨tried, empty⟩ [] = build? signs g [] ∧
      ∀ same, g.whole.cut same = (Group.before same tried).or (wordThen same words behind) := by
  obtain ⟨g, built, cut⟩ := build?_words nonempty (.closes :: sign :: signs) none [⟨tried, empty⟩]
  have adds : ∀ g, build? (sign :: signs) g [] = build? signs (g.add behind) [] := by
    cases ends <;> exact fun _ => rfl
  refine ⟨⟨tried, seq (seq empty g.whole) behind⟩, ?_, fun same => ?_⟩
  · rw [Sign.grouped, List.cons_append, List.append_assoc]
    exact built.trans (adds _)
  · have words_only : g.whole.cut same = anyOf same words := cut same
    rw [Group.cut_whole]
    simp [SearchPattern.cut, words_only, wordThen]

theorem Ending.read?_group (ends : Ending ending sign behind)
    (made : Vocabulary.pattern? words = some p) :
    ∃ q, read? ("(?:" ++ p ++ ending) = some q ∧
      ∀ same, q.cut same = wordThen same words behind := by
  obtain ⟨g, built, cut⟩ := ends.build?_grouped (Vocabulary.ne_nil_of_pattern? made) none []
  rw [List.append_nil] at built
  refine ⟨g.whole, ?_, cut⟩
  rw [read?, ends.read?_of_grouped made]
  exact built

end Ending

/-- A pattern with gaps tries the words that need one, then those that the next word may touch. -/
theorem read?_gapPattern? {spaced touching : List String} {pattern : String}
    (made : Vocabulary.gapPattern? spaced touching = some pattern) :
    ∃ p, read? pattern = some p ∧ ∀ same, p.cut same =
      (wordThen same spaced gap).or (wordThen same touching blanks) := by
  cases first : Vocabulary.pattern? spaced with
  | none =>
    obtain rfl := Vocabulary.pattern?_eq_none_iff.1 first
    cases second : Vocabulary.pattern? touching with
    | none => simp [Vocabulary.gapPattern?, first, second] at made
    | some q =>
      obtain rfl : "(?:" ++ q ++ ")\\s*" = pattern := by
        simpa [Vocabulary.gapPattern?, first, second] using made
      exact Ending.blanks.read?_group second
  | some p =>
    cases second : Vocabulary.pattern? touching with
    | none =>
      obtain rfl := Vocabulary.pattern?_eq_none_iff.1 second
      obtain rfl : "(?:" ++ p ++ ")\\s+" = pattern := by
        simpa [Vocabulary.gapPattern?, first, second] using made
      simpa only [wordThen_nil, Cut.or_fail] using Ending.gap.read?_group first
    | some q =>
      obtain rfl : "(?:" ++ p ++ ")\\s+" ++ "|" ++ ("(?:" ++ q ++ ")\\s*") = pattern := by
        simpa [Vocabulary.gapPattern?, first, second, String.append_assoc] using made
      obtain ⟨g, built, cut⟩ := Ending.gap.build?_grouped (Vocabulary.ne_nil_of_pattern? first) none
        (.bar :: Sign.grouped touching .blanks)
      obtain ⟨h, built', cut'⟩ := Ending.blanks.build?_grouped
        (Vocabulary.ne_nil_of_pattern? second) (some g.whole) []
      have bar : "|".toList = ['|'] := rfl
      rw [List.append_nil] at built'
      refine ⟨h.whole, ?_, fun same => ?_⟩
      · rw [read?, String.toList_append, String.toList_append, List.append_assoc,
          Ending.gap.read?_grouped first, bar, List.singleton_append, Sign.read?,
          Ending.blanks.read?_of_grouped second]
        exact built.trans built'
      · rw [cut', Group.before, Option.map_some, Option.getD_some, cut]
        rfl

end SearchPattern

end DatePhrase
