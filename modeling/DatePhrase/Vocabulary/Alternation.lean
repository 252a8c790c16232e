import DatePhrase.Text.WordChar

/-! Word lists in the order in which they are tried: longer words first, so that a short word never
hides a longer one that it begins. `pattern?` writes such a list as a search pattern. -/
namespace DatePhrase.Vocabulary
open Text

/-- Longer words come first, words of one length in the order of their code points. -/
def precedes (a b : String) : Bool :=
  b.length < a.length || (a.length == b.length && a ≤ b)

/-- The distinct nonempty words in the order in which they are tried. -/
def arrange (words : List String) : List String :=
  ((words.filter (· ≠ "")).eraseDups).mergeSort precedes

theorem mem_arrange {words : List String} {w : String} :
    w ∈ arrange words ↔ w ∈ words ∧ w ≠ "" := by
  simp [arrange, List.mem_eraseDups]

/-- Characters that a search pattern gives a meaning. -/
def metacharacters : List Char :=
  "\\.+*?()|[]\x7b\x7d^$#&-~".toList

/-- The word with a backslash before each character that has a meaning. -/
def escape (word : String) : String :=
  String.ofList (word.toList.flatMap fun c => if c ∈ metacharacters then ['\\', c] else [c])

/-- Words as a search pattern that tries them in their order. -/
def pattern? : List String → Option String
  | [] => none
  | first :: rest => some ("|".intercalate ((first :: rest).map escape))

/-- The distinct nonempty words as a search pattern, longer ones first. -/
def alternation? (words : List String) : Option String := pattern? (arrange words)

/-- Whether a word ends in a script written without spaces, so that the next word may touch it. -/
def endsUnspaced (word : String) : Bool :=
  word.toList.getLast?.any isUnspaced

/-- Words that need a blank behind them. -/
def spacedWords (words : List String) : List String := words.filter (! endsUnspaced ·)

/-- Words that the next word may touch. -/
def touchingWords (words : List String) : List String := words.filter endsUnspaced

/-- Words with a blank behind them, or words that the next one may touch, as a search pattern. -/
def gapPattern? (spaced touching : List String) : Option String :=
  let spaced := (pattern? spaced).map fun p => "(?:" ++ p ++ ")\\s+"
  let touching := (pattern? touching).map fun p => "(?:" ++ p ++ ")\\s*"
  match spaced, touching with
  | some p, some q => some (p ++ "|" ++ q)
  | p, q => p <|> q

/-- The words as a search pattern that takes in the gap behind each word. -/
def gapAlternation? (words : List String) : Option String :=
  gapPattern? (arrange (spacedWords words)) (arrange (touchingWords words))

end DatePhrase.Vocabulary
