import BuildWatch.Json.Printer
import BuildWatch.Message.Request

/-!
# Responses

A compile response carries the diagnostics of the compiler, and a tooltip
response the text about a place, if there is one, and the range it is about.
Lines and columns count from zero.
-/

namespace BuildWatch

/-- A place in a file. -/
structure Position where
  line : UInt32
  column : UInt32
  deriving DecidableEq, Repr

/-- A stretch of a file. -/
structure Range where
  source : String
  start : Position
  stop : Position
  deriving DecidableEq, Repr

/-- How bad a diagnostic is. -/
inductive Severity where
  | error
  | warning
  deriving DecidableEq, Repr

namespace Severity

/-- The name of a severity. -/
def label : Severity → String
  | .error => "error"
  | .warning => "warning"

end Severity

/-- What a compiler has to say about a stretch of a file. -/
structure Diagnostic where
  severity : Severity
  text : String
  range : Range
  deriving DecidableEq, Repr

/-- The diagnostics of one compilation. -/
structure CompileLog where
  diagnostics : List Diagnostic := []
  deriving DecidableEq, Repr

namespace CompileLog

/-- The diagnostics of a severity. -/
def ofSeverity (log : CompileLog) (severity : Severity) : List Diagnostic :=
  log.diagnostics.filter (·.severity = severity)

/-- How many errors there are. -/
def errorCount (log : CompileLog) : Nat := (log.ofSeverity .error).length

/-- How many warnings there are. -/
def warningCount (log : CompileLog) : Nat := (log.ofSeverity .warning).length

end CompileLog

/-- The answer to a compile request. -/
structure CompileResult where
  id : RequestId
  log : CompileLog
  deriving DecidableEq, Repr

/-- The answer to a tooltip request. -/
structure TooltipResult where
  id : RequestId
  range : Option Range
  tooltip : Option String
  deriving DecidableEq, Repr

/-- A response. -/
inductive Response where
  | compile (result : CompileResult)
  | tooltip (result : TooltipResult)
  deriving DecidableEq, Repr

namespace Position

/-- The written form of a position. -/
def toJson (position : Position) : Json :=
  .object [("line", .natural position.line.toNat), ("column", .natural position.column.toNat)]

end Position

namespace Range

/-- The written form of a range. -/
def toJson (range : Range) : Json :=
  .object [("source", .text range.source), ("start", range.start.toJson), ("end", range.stop.toJson)]

end Range

namespace Diagnostic

/-- The written form of a diagnostic. -/
def toJson (diagnostic : Diagnostic) : Json :=
  .object [
    ("kind", .text diagnostic.severity.label),
    ("text", .text diagnostic.text),
    ("range", diagnostic.range.toJson)]

end Diagnostic

namespace CompileLog

/-- The written form of a log. -/
def toJson (log : CompileLog) : Json :=
  .object [("diagnostics", .array (log.diagnostics.map Diagnostic.toJson))]

end CompileLog

namespace Response

/-- The number of the request that a response answers. -/
def id : Response → RequestId
  | .compile result => result.id
  | .tooltip result => result.id

/-- The kind of a response. -/
def kind : Response → RequestKind
  | .compile _ => .compile
  | .tooltip _ => .tooltip

/-- The written form of a response; what is absent is written as null. -/
def toJson : Response → Json
  | .compile result =>
    .object [
      ("type", .text RequestKind.compile.label),
      ("id", .natural result.id.toNat),
      ("log", result.log.toJson)]
  | .tooltip result =>
    .object [
      ("type", .text RequestKind.tooltip.label),
      ("id", .natural result.id.toNat),
      ("range", (result.range.map Range.toJson).getD .null),
      ("tooltip", (result.tooltip.map Json.text).getD .null)]

/-- The line of a response. -/
def written (response : Response) : String := response.toJson.written

end Response
end BuildWatch
