import DatePhrase.CommandLine

/-! Files in memory. A path is walked part by part, as on a disk: every part but the last leads
through a directory, a point stays, two points go up, and a name that is too long leads nowhere. -/
namespace DatePhrase

/-- Directories and files, by the names on the way to them. -/
structure FileTree where
  /-- Directories that are there even without a file below them. -/
  directories : List (List String)
  files : List (List String × String)

namespace FileTree

/-- The parts of a path between slashes, some of them empty. -/
def partsOf (path : String) : List String := (path.toList.splitOn '/').map String.ofList

/-- A part that leads to where one is. -/
def isStay (part : String) : Bool := part == "" || part == "."

/-- Where a path leads that goes through directories only. -/
def placeOf (path : String) : List String := (partsOf path).filter (! isStay ·)

/-- Bytes that one name may take. -/
def maxName : Nat := 255

/-- Bytes that a path may take. -/
def maxPath : Nat := 4095

def contents? (t : FileTree) (place : List String) : Option String := t.files.lookup place

def isFile (t : FileTree) (place : List String) : Bool := (t.contents? place).isSome

/-- A directory is named as one, or stands above a directory or a file. -/
def isDirectory (t : FileTree) (place : List String) : Bool :=
  t.directories.any place.isPrefixOf ||
    t.files.any fun (file, _) => place.isPrefixOf file && place ≠ file

/-- The place that parts lead to from another, if all of them are there. -/
def walk (t : FileTree) : List String → List String → Option (List String)
  | place, [] => some place
  | place, part :: rest =>
    if !t.isDirectory place then none
    else if isStay part then t.walk place rest
    else if part = ".." then t.walk place.dropLast rest
    else if maxName < part.utf8ByteSize then none
    else
      let next := place ++ [part]
      if t.isDirectory next || t.isFile next then t.walk next rest else none

def find? (t : FileTree) (path : String) : Option (List String) :=
  if maxPath < path.utf8ByteSize then none else t.walk [] (partsOf path)

/-- Makes the directories that parts lead through and are not there yet, and gives the last. -/
def makeDirectories (t : FileTree) : List String → List String → Option (FileTree × List String)
  | place, [] => some (t, place)
  | place, part :: rest =>
    if isStay part then t.makeDirectories place rest
    else if part = ".." then t.makeDirectories place.dropLast rest
    else if maxName < part.utf8ByteSize then none
    else
      let next := place ++ [part]
      if t.isFile next then none
      else if t.isDirectory next then t.makeDirectories next rest
      else FileTree.makeDirectories { t with directories := next :: t.directories } next rest

/-- Adds an empty file, with the directories above it, where nothing is yet. The path ends in the
name of the file. -/
def create? (t : FileTree) (path : String) : Option FileTree := do
  if maxPath < path.utf8ByteSize then none
  let name ← (partsOf path).getLast?
  if isStay name ∨ name = ".." ∨ maxName < name.utf8ByteSize then none
  let (t, place) ← t.makeDirectories [] (partsOf path).dropLast
  let file := place ++ [name]
  if t.isFile file || t.isDirectory file then none
  else some { t with files := t.files ++ [(file, "")] }

def access : FileAccess (StateM FileTree) where
  isPresent path := return ((← get).find? path).isSome
  read? path := do
    let t ← get
    return (t.find? path).bind t.contents?
  create path := do
    match (← get).create? path with
    | some t => set t; return true
    | none => return false

/-- The files below a directory, each as its path and its size in bytes. -/
def listing (t : FileTree) (directory : List String) : List String :=
  (t.files.filterMap fun (file, contents) =>
    if directory.isPrefixOf file then
      some ("/".intercalate (file.drop directory.length) ++ ":" ++ toString contents.utf8ByteSize)
    else none).mergeSort (· ≤ ·)

end FileTree

end DatePhrase
