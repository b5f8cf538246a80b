import BuildWatch.Message.Response
import BuildWatch.Path.Basic
import BuildWatch.Text.Numeral

/-!
# What is shown of a response

A diagnostic is shown on a line of its own, the place where it starts in front,
counted from one. Sources below the project's root are named relative to it.
The summary of a log counts its errors and its warnings.
-/

namespace BuildWatch

/-- The place where a range starts, counted from one. -/
def Range.label (root : Path) (range : Range) : String :=
  (Path.relativeTo root ⟨range.source⟩).text ++ ":" ++ toString (range.start.line + 1) ++ ":" ++
    toString (range.start.column + 1)

/-- The line of a diagnostic. -/
def Diagnostic.line (root : Path) (diagnostic : Diagnostic) : String :=
  diagnostic.range.label root ++ ": " ++ diagnostic.severity.label ++ ": " ++ diagnostic.text

namespace CompileLog

/-- One line for a whole log. -/
def summary (log : CompileLog) : String :=
  match log.errorCount, log.warningCount with
  | 0, 0 => "no problems"
  | errors, 0 => Text.count errors "error"
  | 0, warnings => Text.count warnings "warning"
  | errors, warnings => Text.count errors "error" ++ ", " ++ Text.count warnings "warning"

/-- The lines of all diagnostics in order. -/
def lines (root : Path) (log : CompileLog) : List String := log.diagnostics.map (Diagnostic.line root)

/-- The lines of all diagnostics as one text. -/
def detail (root : Path) (log : CompileLog) : String := "\n".intercalate (log.lines root)

end CompileLog

/-- What is shown of a tooltip: its text, with its place in front when one is known. -/
def TooltipResult.shown (root : Path) (result : TooltipResult) : String :=
  match result.tooltip, result.range with
  | none, _ => "no tooltip"
  | some text, none => text
  | some text, some range => range.label root ++ ": " ++ text

end BuildWatch
