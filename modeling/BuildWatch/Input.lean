import BuildWatch.Command
import BuildWatch.Terminal.Note
import BuildWatch.Worker.Order

/-!
# Reacting to typed lines

A typed command goes to the worker or to the watcher, and what is no command is
answered on the terminal. Reading goes on until the receiver of a command is gone.
-/

namespace BuildWatch

/-- What a typed line leads to. -/
inductive Reaction where
  | nothing
  | rebuild
  | order (order : Order)
  | refusal (cause : CommandError)
  deriving DecidableEq, Repr

namespace Reaction

/-- React to a line. -/
def ofLine (disk : Files.Disk) (root : Path) (line : String) : Reaction :=
  match Command.read line with
  | .ok none => .nothing
  | .ok (some .rebuild) => .rebuild
  | .ok (some (.hover location)) => .order (.about disk root location)
  | .error cause => .refusal cause

/-- What is told to the user. -/
def notes : Reaction → List Terminal.Note
  | .refusal cause => [.log "input" cause.message]
  | _ => []

/-- Whether reading goes on, when the worker and the watcher may be gone. -/
def goesOn (worker watcher : Bool) : Reaction → Bool
  | .order _ => worker
  | .rebuild => watcher
  | _ => true

end Reaction
end BuildWatch
