import BuildWatch.Rehearsal
import BuildWatch.Terminal.Screen

/-!
# The command line

The program is run on the files below the current folder as they are at the start,
with the typed lines that are waiting on its input. The outside is read before and
written after; nothing is decided here.
-/

namespace BuildWatch.CommandLine

/-- The deepest folder that is read. -/
def depthBound : Nat := 64

/-- Put a file or folder and everything below it on a disk. -/
def load (disk : Files.Disk) : Nat → IO.FS.DirEntry → IO Files.Disk
  | 0, _ => return disk
  | left + 1, entry => do
    let path : Path := ⟨entry.path.toString⟩
    if ← entry.path.isDir then
      let inner := disk.place path .folder
      (← entry.path.readDir).foldlM (fun disk entry => load disk left entry) inner
    else
      let content ← IO.FS.readBinFile entry.path
      return disk.place path (.file content)

/-- The files below the current folder. -/
def loadCurrent : IO Files.Disk := do
  let current ← IO.currentDir
  let path : Path := ⟨current.toString⟩
  let bare := (Files.Disk.bare.makeFolders path).toOption.getD .bare
  let entered := (bare.enter path).toOption.getD bare
  (← current.readDir).foldlM (fun disk entry => load disk depthBound entry) entered

/-- The time of day that status blocks show, in universal time. It is the time at which a
file was made just now, because the clock itself only tells how much time has passed. -/
def timeOfDay : IO String :=
  IO.FS.withTempFile fun _ path => do
    return Text.clock (← path.metadata).modified.sec.toNat

/-- The lines that are waiting on an input, up to its end, behind those read before. -/
partial def waiting (input : IO.FS.Stream) (before : String) : IO String := do
  let line ← input.getLine
  if line.isEmpty then return before else waiting input (before ++ line)

/-- The typed text that is waiting, and the interruption behind it. -/
def incidents (text : String) : List Incident := [.typed text, .inputClosed, .interrupted]

end BuildWatch.CommandLine

open BuildWatch in
/-- Run the program with the words after its name. -/
def main (words : List String) : IO UInt32 := do
  let disk ← CommandLine.loadCurrent
  let watches : Bool := match Arguments.read words with
    | .ok arguments => arguments.job = .watch
    | .error _ => false
  let typed ← if watches then CommandLine.waiting (← IO.getStdin) "" else pure ""
  let result := Rehearsal.run disk words (if watches then CommandLine.incidents typed else [])
  (← IO.getStdout).putStr (Terminal.Screen.printAll (← CommandLine.timeOfDay) {} result.notes).2
  (← IO.getStderr).putStr result.report
  return UInt32.ofNat result.code
