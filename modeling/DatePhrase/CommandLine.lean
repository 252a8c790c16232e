import DatePhrase.Command
import DatePhrase.Vocabulary.Builtin

/-! The command line: options, then a command with options and words of its own. `run` is the
program over any kind of files, so that it can be run on files in memory as well as on a disk. -/
namespace DatePhrase
open Calendar

structure Arguments where
  config : String
  /-- Languages that take the place of those in the settings, unless there are none. -/
  languages : List String
  weekStart : Option WeekStart
  command : Command
  deriving DecidableEq, Repr

/-- Why a command line asks for no work. -/
inductive Refusal where
  | version
  | usage
  deriving DecidableEq, Repr

namespace Arguments

def defaultConfig : String := "~/.config/nldates/config.toml"

/-- What stands in front of a command, as far as it was read. -/
structure Preamble where
  config : Option String
  languages : List String
  weekStart : Option WeekStart

/-- What stands behind the name of a command, as far as it was read. -/
structure Tail where
  words : List String
  mode : Option InsertMode
  output : Option OutputFormat

/-- Options begin with a dash; a dash alone is a word. -/
def isOption (arg : String) : Bool := arg.startsWith "-" && arg ≠ "-"

/-- The value behind an equals sign, when the argument is this option. -/
def attached? (option arg : String) : Option String :=
  if arg.startsWith (option ++ "=") then some (String.ofList (arg.toList.drop (option.length + 1)))
  else none

/-- The value of an option and the arguments behind it: attached or the next argument. -/
def optionValue? (option : String) : List String → Option (String × List String)
  | [] => none
  | arg :: rest =>
    match attached? option arg with
    | some value => some (value, rest)
    | none =>
      if arg = option then
        match rest with
        | value :: rest => if isOption value then none else some (value, rest)
        | [] => none
      else none

/-- Sets what may be given once. -/
def once {α : Type} (old : Option α) (new : Option α) : Except Refusal (Option α) :=
  match old, new with
  | none, some value => .ok (some value)
  | _, _ => .error .usage

/-- Reads the options and words of a command; behind two dashes everything is a word. -/
def readTail (modes outputs : Bool) : Nat → Tail → List String → Except Refusal Tail
  | 0, _, _ => .error .usage
  | _ + 1, t, [] => .ok t
  | fuel + 1, t, arg :: rest =>
    if arg = "--" then .ok { t with words := t.words ++ rest }
    else if !isOption arg then
      readTail modes outputs fuel { t with words := t.words ++ [arg] } rest
    else
      match (if modes then optionValue? "--mode" (arg :: rest) else none) with
      | some (value, rest) => do
        readTail modes outputs fuel { t with mode := ← once t.mode (InsertMode.ofName? value) } rest
      | none =>
        match (if outputs then optionValue? "--output" (arg :: rest) else none) with
        | some (value, rest) => do
          let output ← once t.output (OutputFormat.ofName? value)
          readTail modes outputs fuel { t with output } rest
        | none => .error .usage

/-- The words of a command joined by blanks; there is at least one. -/
def Tail.text (t : Tail) : Except Refusal String :=
  if t.words.isEmpty then .error .usage else .ok (" ".intercalate t.words)

/-- A command from its name and what follows. -/
def readCommand (name : String) (args : List String) : Except Refusal Command := do
  let read (modes outputs : Bool) := readTail modes outputs (args.length + 1) ⟨[], none, none⟩ args
  if name = "resolve" then
    let t ← read true true
    return .resolve (← t.text) (t.mode.getD .replace) (t.output.getD .text)
  else if name = "range" then
    let t ← read false true
    return .range (← t.text) (t.output.getD .text)
  else if name = "has-time" then
    let t ← read false false
    return .hasTime (← t.text)
  else
    match Stamp.ofName? name with
    | none => .error .usage
    | some stamp =>
      let t ← read false false
      if t.words.isEmpty then return .stamp stamp else .error .usage

/-- A language option: long, or short with its value attached or behind it. -/
def language? : List String → Option (String × List String)
  | [] => none
  | arg :: rest =>
    match optionValue? "--language" (arg :: rest) with
    | some found => some found
    | none =>
      match attached? "-l" arg with
      | some value => some (value, rest)
      | none =>
        if arg = "-l" then optionValue? "-l" (arg :: rest)
        else if arg.startsWith "-l" then some (String.ofList (arg.toList.drop 2), rest)
        else none

/-- Reads the options in front of a command, then the command. -/
def readFrom : Nat → Preamble → List String → Except Refusal Arguments
  | 0, _, _ => .error .usage
  | _ + 1, _, [] => .error .usage
  | fuel + 1, p, arg :: rest =>
    if !isOption arg then do
      let command ← readCommand arg rest
      return ⟨p.config.getD defaultConfig, p.languages, p.weekStart, command⟩
    else if arg = "--version" ∨ arg.startsWith "-V" then .error .version
    else
      match language? (arg :: rest) with
      | some (value, rest) => readFrom fuel { p with languages := p.languages ++ [value] } rest
      | none =>
        match optionValue? "--config" (arg :: rest) with
        | some (value, rest) => do
          let path := if value = "" then none else some value
          readFrom fuel { p with config := ← once p.config path } rest
        | none =>
          match optionValue? "--week-start" (arg :: rest) with
          | some (value, rest) => do
            let weekStart ← once p.weekStart (WeekStart.ofName? value)
            readFrom fuel { p with weekStart } rest
          | none => .error .usage

def read (args : List String) : Except Refusal Arguments :=
  readFrom (args.length + 1) ⟨none, [], none⟩ args

end Arguments

/-- A tilde in front of a path stands for the home directory. Of what follows it only the names and
the steps up are kept. -/
def expandHome (home : Option String) (path : String) : Option String :=
  match (path.toList.splitOn '/').map String.ofList with
  | "~" :: parts =>
    home.map fun h => "/".intercalate (h :: parts.filter fun part => part ≠ "" ∧ part ≠ ".")
  | _ => some path

/-- Access to files, on a disk or in memory. -/
structure FileAccess (m : Type → Type) where
  isPresent : String → m Bool
  read? : String → m (Option String)
  /-- Creates an empty file and the directories above it, if it can. -/
  create : String → m Bool

structure Outcome where
  code : Nat
  output : String
  deriving DecidableEq, Repr

namespace CommandLine

def versionText : String := "nldates 0.9.0\n"

def failure : Outcome := ⟨1, ""⟩

variable {m : Type → Type} [Monad m]

/-- The settings of a file, which is created empty if it is missing. -/
def loadSettings (files : FileAccess m) (path : String) : m (Option Settings) := do
  if ← files.isPresent path then
    return (← files.read? path).bind Settings.ofDocument?
  else if ← files.create path then
    return (← files.read? path).bind Settings.ofDocument?
  else return none

/-- The vocabulary at hand, under the one that the settings name. -/
def loadTable (files : FileAccess m) (home : Option String) (s : Settings) : m (Option Table) := do
  match s.tablePath with
  | none => return some .builtin
  | some path =>
    match expandHome home path with
    | none => return none
    | some path =>
      return ((← files.read? path).bind Table.ofDocument?).map Table.builtin.merge

/-- Options of the command line win over the settings. -/
def applyTo (a : Arguments) (s : Settings) : Settings :=
  { s with
    languages := if a.languages.isEmpty then s.languages else a.languages
    weekStart := a.weekStart.getD s.weekStart }

def perform (files : FileAccess m) (home : Option String) (now : Instant) (a : Arguments) :
    m Outcome := do
  let some path := expandHome home a.config | return failure
  let some settings ← loadSettings files path | return failure
  let settings := applyTo a settings
  let some table ← loadTable files home settings | return failure
  let engine := Engine.ofTable .silent table settings.languages
  match Context.run ⟨settings, engine, now, false⟩ a.command with
  | .ok output => return ⟨0, output⟩
  | .error _ => return failure

/-- The program: refuses with code 2 what it cannot read, and fails with code 1. -/
def run (files : FileAccess m) (home : Option String) (now : Instant) (args : List String) :
    m Outcome :=
  match Arguments.read args with
  | .error .version => return ⟨0, versionText⟩
  | .error .usage => return ⟨2, ""⟩
  | .ok a => perform files home now a

end CommandLine

end DatePhrase
