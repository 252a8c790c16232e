import DatePhrase.Engine

/-! One engine in service for many readers. A new engine is built in full and then put in place of
the old one; engines that readers hold stay as they are. -/
namespace DatePhrase

/-- An engine with a number that tells it from every other one put in service. -/
structure Installed where
  serial : Nat
  engine : Engine

/-- The engine in service, and how many were installed so far. -/
structure Service where
  current : Installed
  count : Nat
  serial_lt : current.serial < count

namespace Service

def start (e : Engine) : Service := ⟨⟨0, e⟩, 1, Nat.one_pos⟩

/-- Puts an engine in service and gives back the one it replaces. -/
def replace (s : Service) (e : Engine) : Installed × Service :=
  (s.current, ⟨⟨s.count, e⟩, s.count + 1, Nat.lt_succ_self s.count⟩)

/-- Builds an engine for other languages and puts it in service. -/
def reload (s : Service) (reader : PhraseReader) (t : Table) (languages : List String) :
    Installed × Service :=
  s.replace (.ofTable reader t languages)

end Service

end DatePhrase
