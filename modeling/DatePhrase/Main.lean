import DatePhrase.CommandLine

/-! The program on the files of a disk. It reads the clock off a fresh file and works in universal
time. -/
namespace DatePhrase
open Calendar

namespace Disk

def succeeds (action : IO Unit) : IO Bool := do
  try
    action
    return true
  catch _ => return false

/-- The path above the last slash. -/
def directoryOf (path : String) : String :=
  String.ofList ((path.toList.reverse.dropWhile (· ≠ '/')).drop 1).reverse

/-- Files are opened to see whether they are there; directories can be opened, too. -/
def access : FileAccess IO where
  isPresent path := succeeds do let _ ← IO.FS.Handle.mk path .read
  read? path := do
    try
      return some (← IO.FS.readFile path)
    catch _ => return none
  create path := succeeds do
    let directory := directoryOf path
    if directory ≠ "" then IO.FS.createDirAll directory
    let _ ← IO.FS.Handle.mk path .writeNew

/-- The instant of some seconds and nanoseconds since the start of day 0. -/
def instantOf (seconds : Int) (nanos : Nat) : Instant :=
  (Instant.ofNumber? (seconds * nanosPerSecond + nanos)).getD (Date.midnight ⟨0, by decide, by decide⟩)

def now : IO Instant := do
  let (_, path) ← IO.FS.createTempFile
  let stamp := (← path.metadata).modified
  IO.FS.removeFile path
  return instantOf stamp.sec stamp.nsec.toNat

end Disk

end DatePhrase

def main (args : List String) : IO UInt32 := do
  let home ← IO.getEnv "HOME"
  let outcome ← DatePhrase.CommandLine.run DatePhrase.Disk.access home (← DatePhrase.Disk.now) args
  IO.print outcome.output
  return outcome.code.toUInt32
