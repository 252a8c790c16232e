import DatePhrase.Toml.Statement

/-! Documents: the table that the statements of a text build. A table is defined once; headers may
add tables inside one that they only pass through, and dotted keys may add to tables of their own
kind alone. -/
namespace DatePhrase.Toml

/-- Changes the table at a path of headers; of tables under one name the last one is meant. -/
def changeAt (change : Entries → Option Entries) : List String → Entries → Option Entries
  | [], entries => change entries
  | name :: path, entries =>
    match entries.lookup name with
    | none => do
      let inner ← changeAt change path []
      return entries ++ [(name, .table .path inner)]
    | some (.table origin old) => do
      if origin = .inline then none
      return Entries.replace entries name (.table origin (← changeAt change path old))
    | some (.rows tables) => do
      let old ← tables.getLast?
      return Entries.replace entries name (.rows (tables.dropLast ++ [← changeAt change path old]))
    | some _ => none

/-- Opens a table by its header. -/
def openTable (name : String) (entries : Entries) : Option Entries :=
  match entries.lookup name with
  | none => some (entries ++ [(name, .table .header [])])
  | some (.table .path old) => some (Entries.replace entries name (.table .header old))
  | some _ => none

/-- Opens a further table under one name. -/
def openRow (name : String) (entries : Entries) : Option Entries :=
  match entries.lookup name with
  | none => some (entries ++ [(name, .rows [[]])])
  | some (.rows tables) => some (Entries.replace entries name (.rows (tables ++ [[]])))
  | some _ => none

/-- The document so far, and the table that entries go to. -/
structure Progress where
  root : Entries
  current : List String

def Progress.step (p : Progress) : Statement → Option Progress
  | .header key => do
    return ⟨← changeAt (openTable key.last) key.path p.root, key.path ++ [key.last]⟩
  | .row key => do
    return ⟨← changeAt (openRow key.last) key.path p.root, key.path ++ [key.last]⟩
  | .entry e => do
    return { p with root := ← changeAt e.addTo p.current p.root }

/-- Reads a text, which may start with a byte order mark. -/
def document? (source : String) : Option Entries := do
  let text := match source.toList with
    | '\ufeff' :: rest => rest
    | text => text
  let (lines, _) ← (statements (text.length + 1)).run text
  let done ← lines.foldlM Progress.step ⟨[], []⟩
  return done.root

end DatePhrase.Toml
