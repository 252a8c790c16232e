import DatePhrase.Calendar.Shift
import DatePhrase.Calendar.Week
import DatePhrase.Text.Lower
import DatePhrase.Vocabulary.Alternation
import DatePhrase.Vocabulary.Table

/-! The words of a list of languages, sorted by what they mean. A word may stand under several
keys: an immediate word takes the earliest of now, today, tomorrow and yesterday, a day name the
latest weekday from Sunday on, and a unit word the last unit of the last language. -/
namespace DatePhrase
open Text Calendar

/-- A word for a point relative to the present day. -/
inductive Immediate where
  | now | today | tomorrow | yesterday
  deriving DecidableEq, Repr

namespace Immediate

def all : List Immediate := [now, today, tomorrow, yesterday]

def name : Immediate → String
  | now => "now" | today => "today" | tomorrow => "tomorrow" | yesterday => "yesterday"

end Immediate

/-- The week that a weekday is looked up in. -/
inductive WeekChoice where
  | current | following | preceding
  deriving DecidableEq, Repr

namespace WeekChoice

/-- The key of the words that choose a week. -/
def name : WeekChoice → String
  | current => "this" | following => "next" | preceding => "last"

/-- Weeks from the present one. -/
def weeks : WeekChoice → Int
  | current => 0 | following => 1 | preceding => -1

end WeekChoice

/-- Words with a meaning; the first entry of a word counts. -/
abbrev Meanings (α : Type) := List (String × α)

/-- The words under a key, language by language, in lower case. -/
def Table.words (t : Table) (languages : List String) (key : String) : List String :=
  (languages.flatMap (t.synonyms key ·)).map lower

/-- Everything that the recognizers know, read off a table for a list of languages. Word lists are
in the order in which they are tried. -/
structure Vocabulary where
  immediate : Meanings Immediate
  units : Meanings TimeUnit
  days : Meanings Weekday
  /-- Words such as "this". -/
  current : List String
  /-- Words such as "next". -/
  following : List String
  /-- Words such as "last". -/
  preceding : List String
  /-- Words that choose a week and need a blank behind them. -/
  spacedChoices : List String
  /-- Words that choose a week and may touch the weekday. -/
  touchingChoices : List String
  unitWords : List String
  dayWords : List String
  /-- Words such as "in". -/
  within : List String
  /-- Words such as "and". -/
  joining : List String
  /-- Words such as "at". -/
  clockIntro : List String
  /-- Words such as "from". -/
  opening : List String
  /-- Words such as "to". -/
  closing : List String

namespace Vocabulary

/-- English names and abbreviations, known in every language. -/
def baseDays : Meanings Weekday :=
  [("sunday", .sunday), ("sun", .sunday), ("monday", .monday), ("mon", .monday),
    ("tuesday", .tuesday), ("tue", .tuesday), ("tues", .tuesday), ("wednesday", .wednesday),
    ("wed", .wednesday), ("thursday", .thursday), ("thu", .thursday), ("thur", .thursday),
    ("thurs", .thursday), ("friday", .friday), ("fri", .friday), ("saturday", .saturday),
    ("sat", .saturday)]

/-- The words of each meaning in turn. -/
def meanings {α : Type} (words : α → List String) (all : List α) : Meanings α :=
  all.flatMap fun meaning => (words meaning).map (·, meaning)

/-- Unit words language by language, from minutes to years in each. -/
def unitMeanings (t : Table) (languages : List String) : Meanings TimeUnit :=
  languages.flatMap fun language => meanings (fun u => t.words [language] u.name) TimeUnit.all

def dayMeanings (t : Table) (languages : List String) : Meanings Weekday :=
  meanings (fun w => t.words languages w.name) Weekday.all

/-- Words that choose a week. -/
def choiceWords (t : Table) (languages : List String) : List String :=
  t.words languages "this" ++ t.words languages "next" ++ t.words languages "last"

/-- The vocabulary of a list of languages; keys that a language lacks add nothing. -/
def ofTable (t : Table) (languages : List String) : Vocabulary where
  immediate := meanings (fun i => t.words languages i.name) Immediate.all
  units := (unitMeanings t languages).reverse
  days := (dayMeanings t languages).reverse ++ baseDays
  current := arrange (t.words languages "this")
  following := arrange (t.words languages "next")
  preceding := arrange (t.words languages "last")
  spacedChoices := arrange (spacedWords (choiceWords t languages))
  touchingChoices := arrange (touchingWords (choiceWords t languages))
  unitWords := arrange ((unitMeanings t languages).map (·.1))
  dayWords := arrange ((dayMeanings t languages).map (·.1))
  within := arrange (t.words languages "in")
  joining := arrange (t.words languages "and")
  clockIntro := arrange (t.words languages "at")
  opening := arrange (t.words languages "from")
  closing := arrange (t.words languages "to")

/-- The word lists that phrases are searched with, as search patterns. -/
structure Patterns where
  within : Option String
  /-- Words that choose a week, with the gap behind them. -/
  choice : Option String
  following : Option String
  day : Option String
  unit : Option String
  joining : Option String
  clockIntro : Option String
  opening : Option String
  closing : Option String
  deriving DecidableEq

def patterns (v : Vocabulary) : Patterns where
  within := pattern? v.within
  choice := gapPattern? v.spacedChoices v.touchingChoices
  following := pattern? v.following
  day := pattern? v.dayWords
  unit := pattern? v.unitWords
  joining := pattern? v.joining
  clockIntro := pattern? v.clockIntro
  opening := pattern? v.opening
  closing := pattern? v.closing

/-- The week that a word chooses. -/
def choice? (v : Vocabulary) (word : String) : Option WeekChoice :=
  if word ∈ v.current then some .current
  else if word ∈ v.following then some .following
  else if word ∈ v.preceding then some .preceding
  else none

/-- The unit that an unknown token abbreviates: the first hint that fits, else minutes. -/
def unitByStart (token : List Char) : TimeUnit :=
  if ['h'].isPrefixOf token then .hour
  else if ['d'].isPrefixOf token || ['j'].isPrefixOf token then .day
  else if ['w'].isPrefixOf token || ['s'].isPrefixOf token then .week
  else if token == ['m'] || ['m', 'i', 'n'].isPrefixOf token then .minute
  else if ['m', 'o'].isPrefixOf token || token == ['M'] then .month
  else if ['y'].isPrefixOf token || ['a'].isPrefixOf token then .year
  else .minute

/-- The unit of a token, known or abbreviated. -/
def unitOf (v : Vocabulary) (token : String) : TimeUnit :=
  (v.units.lookup token).getD (unitByStart token.toList)

/-- The weekday of a name, Sunday for an unknown one. -/
def dayOf (v : Vocabulary) (name : String) : Weekday :=
  (v.days.lookup name).getD .sunday

end Vocabulary

end DatePhrase
