import BuildWatch.Walk.Basic

/-!
# One active walk

At most one walk is active. A new one takes its place, and a walk that is stopped or
replaced is cancelled. The operations that such a walk issued may still end, so it is
kept apart from the active one and not forgotten.

The files of the active walk are asked for until the walk has answered. An answer is
given out once, and the walk is not active any more.
-/

namespace BuildWatch

/-- The active walk, if there is one, and the walks that were started before it, the
oldest first. -/
structure Walks where
  earlier : List Walk := []
  active : Option Walk := none

namespace Walks

/-- Stop the active walk. -/
def cancel (walks : Walks) : Walks :=
  { earlier := walks.earlier ++ (walks.active.map Walk.cancel).toList, active := none }

/-- Walk some roots, in the place of the active walk. -/
def start (walks : Walks) (roots : List Path) : Walks :=
  { walks.cancel with active := some (Walk.start roots) }

/-- What comes of asking for the files of the active walk: nothing yet, its files, or
that the walk ended without an answer. -/
inductive Reply where
  | waiting
  | files (files : List Path)
  | lost
  deriving DecidableEq, Repr

/-- Ask for the files of the active walk. Without one, and as long as it goes on, the
question waits and leaves no trace: given up and asked again later, it gets the same reply
as one that waited all along. -/
def poll (walks : Walks) : Reply × Walks :=
  match walks.active with
  | none => (.waiting, walks)
  | some walk =>
    if walk.ended then
      (match walk.answer with
        | some files => .files files
        | none => .lost,
        { earlier := walks.earlier ++ [walk], active := none })
    else (.waiting, walks)

end Walks
end BuildWatch
