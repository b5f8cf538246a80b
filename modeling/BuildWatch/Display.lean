import BuildWatch.Report
import BuildWatch.Terminal.Note

/-!
# The display

The display shows the diagnostics of the latest compilation as one status block,
and tooltips as log lines. It is told when a tooltip is asked for, and from then
on shows no answer to an earlier question.
-/

namespace BuildWatch

/-- What the display is told. -/
inductive Display.Message where
  | compiled (result : CompileResult)
  | asked (id : RequestId)
  | tooltip (result : TooltipResult)
  deriving DecidableEq, Repr

/-- The number of the question asked last. -/
structure Display where
  latest : Option RequestId := none
  deriving DecidableEq, Repr

namespace Display

/-- Whether an answer is to the question asked last. -/
def accepts (display : Display) (id : RequestId) : Bool := display.latest == some id

/-- The status block of a log. -/
def statusOf (root : Path) (log : CompileLog) : Terminal.Note :=
  if log.errorCount ≠ 0 then .status .failure (Terminal.withDetail log.summary (log.detail root))
  else if log.warningCount ≠ 0 then .status .caution (log.summary ++ "\n" ++ log.detail root)
  else .status .success log.summary

/-- Take a message. -/
def take (root : Path) (display : Display) : Message → Noted Display
  | .compiled result =>
    ⟨display, [.detail "ui" ("compile #" ++ toString result.id ++ " finished"),
      statusOf root result.log]⟩
  | .asked id => .quiet { display with latest := some id }
  | .tooltip result =>
    if display.accepts result.id then ⟨display, [.log "hover" (result.shown root)]⟩
    else ⟨display, [.detail "ui" ("drop stale tooltip #" ++ toString result.id)]⟩

end Display
end BuildWatch
