import BuildWatch.Files.Access
import BuildWatch.Path.Order

/-!
# Finding the worker's program

A program named without a slash is looked for among the system's commands, and
any other name is the path of a file, read from the folder the worker runs in.
The files of a project cannot be run: they are plain text, not programs.
-/

namespace BuildWatch

/-- The commands that every system has. -/
def systemCommands : List String :=
  ["sh", "bash", "dash", "cat", "printf", "echo", "sleep", "true", "false", "ls", "tr", "sed",
    "head", "tail", "env", "yes", "tee", "wc", "sort", "grep", "cut", "kill", "test", "pwd",
    "date", "awk", "seq", "touch", "rm", "mkdir", "cp", "mv", "basename", "dirname"]

/-- The folders that hold the system's commands. -/
def systemFolders : List Path := [⟨"/bin"⟩, ⟨"/usr/bin"⟩]

/-- The name of the system command that a program's name means. -/
def systemCommand? (program : String) : Option String :=
  if program.toList.contains '/' then
    match Path.fileName? ⟨program⟩, Path.parent? ⟨program⟩ with
    | some name, some folder =>
      (Text.ofBytes? name).filter fun name =>
        folder.memberOf systemFolders && systemCommands.contains name
    | _, _ => none
  else if systemCommands.contains program then some program
  else none

/-- Why a program cannot be started in a folder, if it cannot. -/
def startFault? (disk : Files.Disk) (folder : Path) (program : String) : Option Files.Fault :=
  if program.toList.contains (Char.ofNat 0) then some .zeroByte
  else if (systemCommand? program).isSome then none
  else if program.toList.contains '/' then
    match disk.nodeOf true (folder.join ⟨program⟩) with
    | .error fault => some fault
    | .ok _ => some .denied
  else some .missing

end BuildWatch
