import BuildWatch.Message.Fault
import BuildWatch.Settings.Basic

/-!
# Ending without success

A failure has a message and a chain of causes behind it. It is reported with the
message on the first line; one cause stands below it by itself, and several are
numbered.
-/

namespace BuildWatch

/-- Why the program ends without success. -/
inductive Failure where
  | settings (fault : SettingsFault)
  | notStarted (fault : WorkerFault)
  | workerFailed (fault : WorkerFault)
  | workerStopped
  | interrupted
  | checkFailed (summary : String)
  deriving Repr

namespace Failure

/-- The wording of a failure. -/
def message : Failure → String
  | .settings fault => fault.message
  | .notStarted _ => "failed to start compiler worker"
  | .workerFailed _ => "compiler worker failed"
  | .workerStopped => "compiler worker stopped"
  | .interrupted => "interrupted"
  | .checkFailed summary => "check failed: " ++ summary

/-- The chain of causes, the nearest first. -/
def causes : Failure → List String
  | .settings fault => fault.cause?.toList
  | .notStarted fault => fault.message :: fault.cause?.toList
  | .workerFailed fault => fault.message :: fault.cause?.toList
  | _ => []

/-- A text whose lines after the first start with a margin. -/
def indented (margin text : String) : String := ("\n" ++ margin).intercalate (text.splitOn "\n")

/-- The numbered lines of causes. -/
def numbered (number : Nat) : List String → String
  | [] => ""
  | cause :: rest =>
    "    " ++ toString number ++ ": " ++ indented "       " cause ++ "\n" ++ numbered (number + 1) rest

/-- The report of a failure. -/
def report (failure : Failure) : String :=
  "Error: " ++ failure.message ++ "\n" ++
    match failure.causes with
    | [] => ""
    | [cause] => "\nCaused by:\n    " ++ indented "    " cause ++ "\n"
    | causes => "\nCaused by:\n" ++ numbered 0 causes

end Failure
end BuildWatch
