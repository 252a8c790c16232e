import DatePhrase.Text.Blank
import DatePhrase.Vocabulary.Keyed

/-! Vocabulary tables: for each language, words under keys such as `tomorrow` or `in`. A value lists
synonyms between bars. A language may lack any key. -/
namespace DatePhrase
open Text

/-- The language of an empty list of languages. -/
def defaultLanguage : String := "en"

/-- The parts of a text between bars, without blanks around them and without empty parts. -/
def splitSynonyms (value : String) : List String :=
  ((value.toList.splitOn '|').map fun part => String.ofList (trimBlanks part)).filter (· ≠ "")

/-- Values by language, then by key. -/
structure Table where
  languages : Keyed (Keyed String)
  deriving DecidableEq

namespace Table

def empty : Table := ⟨.empty⟩

def hasLanguage (t : Table) (language : String) : Bool := (t.languages.get? language).isSome

/-- The entry as it was given, blank or not. -/
def entry? (t : Table) (key language : String) : Option String :=
  (t.languages.get? language).bind (·.get? key)

/-- The value of a key, unless the language lacks it or it is blank. -/
def lookup? (t : Table) (key language : String) : Option String :=
  (t.entry? key language).filter fun value => trim value ≠ ""

/-- The words under a key, none when the language lacks it. -/
def synonyms (t : Table) (key language : String) : List String :=
  ((t.lookup? key language).map splitSynonyms).getD []

/-- Lays entries over those of one language. -/
def overlay (t : Table) (language : String) (entries : Keyed String) : Table :=
  ⟨t.languages.put language (((t.languages.get? language).getD .empty).extend entries)⟩

def insert (t : Table) (language key value : String) : Table :=
  t.overlay language (Keyed.empty.put key value)

/-- Lays `other` over `t`: the entries of `other` win. -/
def merge (t other : Table) : Table :=
  other.languages.entries.foldl (fun t entry => t.overlay entry.1 entry.2) t

end Table

end DatePhrase
