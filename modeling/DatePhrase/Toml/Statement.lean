import DatePhrase.Toml.Scalar

/-! The lines of a TOML document: headers and entries. Every reader takes the text from its front
and gives back the rest. -/
namespace DatePhrase.Toml

/-- Reads a value from the front of a text, if it is well formed. -/
abbrev Reader := StateT (List Char) Option

/-- Characters that may stand in comments and strings: no controls but the tab. -/
def isPlain (c : Char) : Bool := c == '\t' || (0x20 ≤ c.toNat && c.toNat ≠ 0x7f)

def isBlankOnLine (c : Char) : Bool := c == ' ' || c == '\t'

/-- The character of a code point in hexadecimal digits. -/
def codePoint? (digits : List Char) : Option Char := do
  let n := ofDigits 16 (← digits.mapM (digitOf? 16))
  if n.isValidChar then some (Char.ofNat n) else none

/-- The character that a single letter behind a backslash stands for. -/
def escape? : Char → Option Char
  | 'b' => some '\x08'
  | 't' => some '\t'
  | 'n' => some '\n'
  | 'f' => some '\x0c'
  | 'r' => some '\r'
  | 'e' => some '\x1b'
  | '"' => some '"'
  | '\\' => some '\\'
  | _ => none

/-- Puts a character in front of a string that was read. -/
def before (c : Char) (found : Option (List Char × List Char)) : Option (List Char × List Char) :=
  found.map fun (text, rest) => (c :: text, rest)

/-- The rest of a string on one line, behind its opening quote. -/
def basicRest : List Char → Option (List Char × List Char)
  | '"' :: rest => some ([], rest)
  | '\\' :: 'x' :: a :: b :: rest => do before (← codePoint? [a, b]) (basicRest rest)
  | '\\' :: 'u' :: a :: b :: c :: d :: rest => do before (← codePoint? [a, b, c, d]) (basicRest rest)
  | '\\' :: 'U' :: a :: b :: c :: d :: e :: f :: g :: h :: rest => do
    before (← codePoint? [a, b, c, d, e, f, g, h]) (basicRest rest)
  | '\\' :: c :: rest => do before (← escape? c) (basicRest rest)
  | c :: rest => if isPlain c then before c (basicRest rest) else none
  | [] => none

/-- The rest of a string without escapes on one line. -/
def literalRest : List Char → Option (List Char × List Char)
  | '\'' :: rest => some ([], rest)
  | c :: rest => if isPlain c then before c (literalRest rest) else none
  | [] => none

/-- Where a reader of long strings stands: in the text, behind a backslash at the end of a line, or
in the blanks that such a backslash drops. -/
inductive Place where
  | text | lineEnd | dropped
  deriving DecidableEq

/-- The rest of a string over several lines. Up to two quotes may touch the closing ones. -/
def longBasicRest : Place → List Char → Option (List Char × List Char)
  | .lineEnd, '\n' :: rest => longBasicRest .dropped rest
  | .lineEnd, '\r' :: '\n' :: rest => longBasicRest .dropped rest
  | .lineEnd, c :: rest => if isBlankOnLine c then longBasicRest .lineEnd rest else none
  | .dropped, '\n' :: rest => longBasicRest .dropped rest
  | .dropped, '\r' :: '\n' :: rest => longBasicRest .dropped rest
  | .dropped, ' ' :: rest => longBasicRest .dropped rest
  | .dropped, '\t' :: rest => longBasicRest .dropped rest
  | _, '"' :: '"' :: '"' :: '"' :: '"' :: rest => some (['"', '"'], rest)
  | _, '"' :: '"' :: '"' :: '"' :: rest => some (['"'], rest)
  | _, '"' :: '"' :: '"' :: rest => some ([], rest)
  | _, '\\' :: 'x' :: a :: b :: rest => do
    before (← codePoint? [a, b]) (longBasicRest .text rest)
  | _, '\\' :: 'u' :: a :: b :: c :: d :: rest => do
    before (← codePoint? [a, b, c, d]) (longBasicRest .text rest)
  | _, '\\' :: 'U' :: a :: b :: c :: d :: e :: f :: g :: h :: rest => do
    before (← codePoint? [a, b, c, d, e, f, g, h]) (longBasicRest .text rest)
  | _, '\\' :: '\n' :: rest => longBasicRest .dropped rest
  | _, '\\' :: '\r' :: '\n' :: rest => longBasicRest .dropped rest
  | _, '\\' :: c :: rest =>
    if isBlankOnLine c then longBasicRest .lineEnd rest
    else do before (← escape? c) (longBasicRest .text rest)
  | _, '\n' :: rest => before '\n' (longBasicRest .text rest)
  | _, '\r' :: '\n' :: rest => before '\r' (before '\n' (longBasicRest .text rest))
  | _, c :: rest => if isPlain c then before c (longBasicRest .text rest) else none
  | _, [] => none

/-- The rest of a string without escapes over several lines. -/
def longLiteralRest : List Char → Option (List Char × List Char)
  | '\'' :: '\'' :: '\'' :: '\'' :: '\'' :: rest => some (['\'', '\''], rest)
  | '\'' :: '\'' :: '\'' :: '\'' :: rest => some (['\''], rest)
  | '\'' :: '\'' :: '\'' :: rest => some ([], rest)
  | '\n' :: rest => before '\n' (longLiteralRest rest)
  | '\r' :: '\n' :: rest => before '\r' (before '\n' (longLiteralRest rest))
  | c :: rest => if isPlain c then before c (longLiteralRest rest) else none
  | [] => none

/-- Drops the line break that may follow the opening quotes of a long string. -/
def dropLineBreak : List Char → List Char
  | '\n' :: rest => rest
  | '\r' :: '\n' :: rest => rest
  | rest => rest

/-- Drops blanks, line breaks and comments; inside a comment all plain characters go. -/
def dropTrivia : Bool → List Char → Option (List Char)
  | _, '\n' :: rest => dropTrivia false rest
  | _, '\r' :: '\n' :: rest => dropTrivia false rest
  | true, c :: rest => if isPlain c then dropTrivia true rest else none
  | false, '#' :: rest => dropTrivia true rest
  | false, ' ' :: rest => dropTrivia false rest
  | false, '\t' :: rest => dropTrivia false rest
  | false, rest => some rest
  | true, [] => some []

def skipTrivia : Reader Unit := fun s => (dropTrivia false s).map ((), ·)

def skipBlanks : Reader Unit := modify (·.dropWhile isBlankOnLine)

/-- Takes one given character, or nothing. -/
def accept (c : Char) : Reader Bool := do
  match ← get with
  | d :: rest => if c = d then set rest; return true else return false
  | [] => return false

/-- Takes one given character. -/
def expect (c : Char) : Reader Unit := do
  if ← accept c then return () else failure

/-- The rest of a line: blanks, a comment, and a line break or the end of the text. -/
def endOfLine : Reader Unit := do
  skipBlanks
  if ← accept '#' then modify (·.dropWhile isPlain)
  match ← get with
  | [] => return ()
  | '\n' :: rest => set rest
  | '\r' :: '\n' :: rest => set rest
  | _ => failure

/-- A string in quotes of any kind. -/
def string : Reader String := fun s =>
  (match s with
    | '"' :: '"' :: '"' :: rest => longBasicRest .text (dropLineBreak rest)
    | '"' :: rest => basicRest rest
    | '\'' :: '\'' :: '\'' :: rest => longLiteralRest (dropLineBreak rest)
    | '\'' :: rest => literalRest rest
    | _ => none).map fun (text, rest) => (String.ofList text, rest)

def isBareKey (c : Char) : Bool :=
  ('a' ≤ c && c ≤ 'z') || ('A' ≤ c && c ≤ 'Z') || isDecimal c || c == '_' || c == '-'

/-- One part of a key, bare or in quotes on one line. -/
def keyPart : Reader String := fun s =>
  match s with
  | '"' :: rest => (basicRest rest).map fun (text, rest) => (String.ofList text, rest)
  | '\'' :: rest => (literalRest rest).map fun (text, rest) => (String.ofList text, rest)
  | _ =>
    let bare := s.takeWhile isBareKey
    if bare.isEmpty then none else some (String.ofList bare, s.dropWhile isBareKey)

/-- The parts of a key between points; there are at most `fuel` of them. -/
def keyParts : Nat → Reader (List String)
  | 0 => failure
  | fuel + 1 => do
    skipBlanks
    let part ← keyPart
    skipBlanks
    if ← accept '.' then return part :: (← keyParts fuel) else return [part]

/-- A key: the tables that it passes through, and its last part. -/
structure Key where
  path : List String
  last : String

/-- A key has at most so many parts. -/
def maxParts : Nat := 80

def key : Reader Key := do
  let parts ← keyParts (← get).length
  if maxParts < parts.length then failure
  match parts.getLast? with
  | some last => return ⟨parts.dropLast, last⟩
  | none => failure

/-- The entry of a table at a given place, passing through other tables. -/
structure Entry where
  key : Key
  value : Value

/-- Adds an entry at the end of a dotted path. The path may pass through tables of headers' paths,
the last of the tables under one name, and tables of other dotted keys, but the table that takes the
entry is one of the latter. -/
def putDotted (last : String) (value : Value) : List String → Entries → Option Entries
  | [], entries =>
    if (entries.lookup last).isSome then none else some (entries ++ [(last, value)])
  | name :: path, entries =>
    match entries.lookup name with
    | none => do
      let inner ← putDotted last value path []
      return entries ++ [(name, .table .dotted inner)]
    | some (.table origin old) => do
      if origin = .inline ∨ origin = .header then none
      if path.isEmpty ∧ origin ≠ .dotted then none
      return Entries.replace entries name (.table origin (← putDotted last value path old))
    | some (.rows tables) => do
      if path.isEmpty then none
      let old ← tables.getLast?
      return Entries.replace entries name
        (.rows (tables.dropLast ++ [← putDotted last value path old]))
    | some _ => none

def Entry.addTo (e : Entry) (entries : Entries) : Option Entries :=
  putDotted e.key.last e.value e.key.path entries

/-- The table of entries written between braces. -/
def inlineTable? (entries : List Entry) : Option Value := do
  return .table .inline (← entries.foldlM (fun t e => e.addTo t) [])

/-- Characters that end a value without quotes. -/
def endsScalar (c : Char) : Bool :=
  c == ',' || c == ']' || c == '\x7d' || c == '#' || c == '\n' || c == '\r' || isBlankOnLine c

/-- A value without quotes; a blank may part a date from its time. -/
def scalar : Reader Value := fun s =>
  let word := s.takeWhile (! endsScalar ·)
  let rest := s.dropWhile (! endsScalar ·)
  match date? word, rest with
  | some (_, []), ' ' :: c :: more =>
    if isDecimal c then
      let tail := (c :: more).takeWhile (! endsScalar ·)
      (scalar? (word ++ ' ' :: tail)).map (·, (c :: more).dropWhile (! endsScalar ·))
    else (scalar? word).map (·, rest)
  | _, _ => (scalar? word).map (·, rest)

/-- Arrays and tables between braces nest at most so deep. -/
def maxDepth : Nat := 80

mutual

/-- A value inside `depth` arrays and tables. Of two steps one at least takes a character, which
bounds the `fuel`. -/
def value (fuel depth : Nat) : Reader Value :=
  match fuel with
  | 0 => failure
  | fuel + 1 => do
    match ← get with
    | '[' :: rest =>
      if maxDepth ≤ depth then failure
      set rest
      return .array (← items fuel (depth + 1))
    | '\x7b' :: rest =>
      if maxDepth ≤ depth then failure
      set rest
      let some table := inlineTable? (← pairs fuel (depth + 1)) | failure
      return table
    | '"' :: _ => .text <$> string
    | '\'' :: _ => .text <$> string
    | _ => scalar

/-- The items of an array up to its closing bracket. -/
def items (fuel depth : Nat) : Reader (List Value) :=
  match fuel with
  | 0 => failure
  | fuel + 1 => do
    skipTrivia
    if ← accept ']' then return []
    let item ← value fuel depth
    skipTrivia
    if ← accept ',' then return item :: (← items fuel depth)
    expect ']'
    return [item]

/-- The entries of a table up to its closing brace, with line breaks anywhere but inside keys. -/
def pairs (fuel depth : Nat) : Reader (List Entry) :=
  match fuel with
  | 0 => failure
  | fuel + 1 => do
    skipTrivia
    if ← accept '\x7d' then return []
    let key ← key
    skipTrivia
    expect '='
    skipTrivia
    let pair : Entry := ⟨key, ← value fuel depth⟩
    skipTrivia
    if ← accept ',' then return pair :: (← pairs fuel depth)
    expect '\x7d'
    return [pair]

end

inductive Statement where
  /-- The entries that follow belong to this table. -/
  | header (key : Key)
  /-- They belong to a new table under this name. -/
  | row (key : Key)
  | entry (entry : Entry)

/-- A line that is not blank. -/
def statement : Reader Statement := do
  if ← accept '[' then
    if ← accept '[' then
      let key ← key
      expect ']'
      expect ']'
      return .row key
    let key ← key
    expect ']'
    return .header key
  let key ← key
  expect '='
  skipBlanks
  return .entry ⟨key, ← value (2 * (← get).length) 0⟩

/-- All lines; each statement takes a character. -/
def statements : Nat → Reader (List Statement)
  | 0 => failure
  | fuel + 1 => do
    skipTrivia
    if (← get).isEmpty then return []
    let first ← statement
    endOfLine
    return first :: (← statements fuel)

end DatePhrase.Toml
