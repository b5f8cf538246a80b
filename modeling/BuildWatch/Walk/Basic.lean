import BuildWatch.Files.Access
import BuildWatch.Hidden
import BuildWatch.Terminal.Note

/-!
# Walks

A walk finds the regular files below some roots. It issues one operation for
every folder to list and one for every entry to inspect, and nothing waits for
its siblings: operations end in any order, and each leaves a result for the walk
to take in. The walk counts the operations whose result it has not taken in, and
gives its answer once, when that count is zero.

A cancelled walk gives no answer. Operations that were issued already still end,
but leave no result, and the walk stops the next time it goes on.

A folder or entry that cannot be read is left out together with everything below
it. Hidden entries are never inspected; the name of a root is not looked at.
-/

namespace BuildWatch

/-- What a walk asks of the outside. -/
structure View where
  list : Path → Except Files.Fault (List Path)
  kindOf : Path → Except Files.Fault Files.Kind

/-- The view of a disk that does not change while the walk goes on. -/
def Files.Disk.view (disk : Files.Disk) : View := ⟨disk.list, disk.kindOf⟩

namespace Walk

/-- One thing to find out. -/
inductive Operation where
  | list (folder : Path)
  | inspect (entry : Path)
  deriving DecidableEq, Repr

/-- What came of an operation. -/
inductive Result where
  | listed (entries : List Path)
  | inspected (entry : Path) (kind : Files.Kind)
  | failed (operation : Operation) (fault : Files.Fault)
  deriving Repr

/-- Carry out an operation. -/
def Operation.perform (view : View) : Operation → Result
  | .list folder =>
    match view.list folder with
    | .ok entries => .listed entries
    | .error fault => .failed (.list folder) fault
  | .inspect entry =>
    match view.kindOf entry with
    | .ok kind => .inspected entry kind
    | .error fault => .failed (.inspect entry) fault

/-- What is said about an operation that failed. -/
def Operation.failure : Operation → Files.Fault → String
  | .list folder, fault => "skip: cannot list `" ++ folder.text ++ "`: " ++ fault.message
  | .inspect entry, fault => "skip: cannot stat `" ++ entry.text ++ "`: " ++ fault.message

end Walk

/-- A walk in progress: the roots it was started with, the operations that still run,
the results that wait to be taken in, the count of issued operations whose result was
not taken in, and the files found so far. -/
structure Walk where
  roots : List Path
  running : List Walk.Operation
  arrived : List Walk.Result
  outstanding : Nat
  files : List Path
  cancelled : Bool
  ended : Bool
  answer : Option (List Path)

namespace Walk

/-- A walk of some roots. Every root is listed, also one that is named twice. -/
def start (roots : List Path) : Walk where
  roots := roots
  running := roots.map .list
  arrived := []
  outstanding := roots.length
  files := []
  cancelled := false
  ended := false
  answer := none

/-- Stop a walk. -/
def cancel (walk : Walk) : Walk := { walk with cancelled := true }

/-- Issue operations. -/
def issue (walk : Walk) (operations : List Operation) : Walk :=
  { walk with
    running := walk.running ++ operations
    outstanding := walk.outstanding + operations.length }

/-- Let the running operation at a position end. The result of an operation that
ends after the walk was cancelled is dropped. -/
def complete (view : View) (walk : Walk) (position : Nat) : Walk :=
  match walk.running[position]? with
  | none => walk
  | some operation =>
    let rest := walk.running.eraseIdx position
    if walk.cancelled then { walk with running := rest }
    else { walk with running := rest, arrived := walk.arrived ++ [operation.perform view] }

/-- Take in one result: list the folders and inspect the visible entries it names. -/
def takeIn (walk : Walk) : Result → Noted Walk
  | .listed entries =>
    .quiet (walk.issue ((entries.filter (!Path.isHidden ·)).map .inspect))
  | .inspected entry .file => .quiet { walk with files := walk.files ++ [entry] }
  | .inspected entry .folder => .quiet (walk.issue [.list entry])
  | .inspected _ .other => .quiet walk
  | .failed operation fault => ⟨walk, [.detail "walk" (operation.failure fault)]⟩

/-- Let the walk go on by one result. A walk with nothing outstanding answers, a
cancelled one stops, and one whose results have not arrived yet waits. -/
def advance (walk : Walk) : Noted Walk :=
  if walk.ended then .quiet walk
  else if walk.cancelled then .quiet { walk with ended := true }
  else if walk.outstanding = 0 then
    ⟨{ walk with ended := true, answer := some walk.files },
      [.detail "walk" ("found " ++ toString walk.files.length ++ " files")]⟩
  else
    match walk.arrived with
    | [] => .quiet walk
    | result :: rest =>
      takeIn { walk with arrived := rest, outstanding := walk.outstanding - 1 } result

end Walk
end BuildWatch
