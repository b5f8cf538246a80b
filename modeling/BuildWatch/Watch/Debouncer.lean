import BuildWatch.Path.Order

/-!
# Waiting for quiet

Changes come in bursts. Every change starts a quiet window anew, and only when the
window has passed without another one are the changed paths taken, all at once.
Times and windows are counted in one unit, from any moment on.
-/

namespace BuildWatch

/-- The changed paths, as a set, and the time of the last change that was not taken. -/
structure Debouncer where
  window : Nat
  changed : List Path := []
  last : Option Nat := none
  deriving DecidableEq, Repr

namespace Debouncer

/-- How long to wait when nothing changed, in milliseconds: a day. -/
def idle : Nat := 86400000

/-- Add changed paths; also a change that names no path starts the window. -/
def add (now : Nat) (state : Debouncer) (paths : List Path) : Debouncer :=
  { state with changed := paths.foldl Path.insertInto state.changed, last := some now }

/-- Another window, which counts for changes that wait already. -/
def setWindow (state : Debouncer) (window : Nat) : Debouncer := { state with window := window }

/-- Forget all changes. -/
def clear (state : Debouncer) : Debouncer := { state with changed := [], last := none }

/-- Whether a change waits and the window has passed. -/
def isReady (now : Nat) (state : Debouncer) : Bool :=
  state.last.any fun last => state.window ≤ now - last

/-- The changed paths once they are ready, and the state without them. -/
def take (now : Nat) (state : Debouncer) : Option (List Path) × Debouncer :=
  if state.isReady now then (some state.changed, state.clear) else (none, state)

/-- How long to wait before asking again, at least one millisecond, which is so many
units of time. -/
def waitIn (millisecond now : Nat) (state : Debouncer) : Nat :=
  match state.last with
  | none => idle * millisecond
  | some last => max millisecond (state.window - (now - last))

/-- How long to wait before asking again when time is counted in milliseconds. -/
def wait (now : Nat) (state : Debouncer) : Nat := state.waitIn 1 now

end Debouncer
end BuildWatch
