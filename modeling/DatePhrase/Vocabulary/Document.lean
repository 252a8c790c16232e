import DatePhrase.Toml.Document
import DatePhrase.Vocabulary.Table

/-! Vocabulary tables written as TOML documents: a table for each language, a string for each key. -/
namespace DatePhrase
open Toml

/-- The only entry of a date or time that is read as a table. -/
def momentKey : String := "$__toml_private_datetime"

/-- Entries that are all strings. -/
def stringEntries? (entries : Entries) : Option (Keyed String) :=
  entries.foldlM (fun m (key, value) => match value with
    | .text s => some (m.put key s)
    | _ => none) .empty

/-- The words of one language. -/
def languageEntries? : Value → Option (Keyed String)
  | .table _ entries => stringEntries? entries
  | .moment s => some (Keyed.empty.put momentKey s)
  | _ => none

/-- Reads a table, if the text is a document of that form. -/
def Table.ofDocument? (source : String) : Option Table := do
  let languages ← (← document? source).foldlM
    (fun (m : Keyed (Keyed String)) (language, value) => do
      return m.put language (← languageEntries? value)) .empty
  return ⟨languages⟩

end DatePhrase
