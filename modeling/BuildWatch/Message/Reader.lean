import BuildWatch.Json.Reader
import BuildWatch.Message.Fault
import BuildWatch.Message.Response

/-!
# Reading responses

A line is one JSON object whose type names the kind of response. Its fields are
looked at in the order in which they stand in the line, and the first value that
does not fit is the cause given. Only when all that are there fit, the first
declared field that is missing is. Unknown fields are not looked at.

Inside the line, a record may also be written as the array of its fields in the
order declared, and a severity as an object with one key and nothing under it.
-/

namespace BuildWatch

namespace Schema

/-- Read an integer of a word type. -/
def word (bound : Nat) (expected : Expected) : Json → Except SchemaFault Nat
  | .number (.integer value) =>
    if 0 ≤ value ∧ value.toNat < bound then .ok value.toNat
    else .error (.outOfRange value expected)
  | other => .error (.wrongType other expected)

/-- Read a word of 64 bits. -/
def word64 (value : Json) : Except SchemaFault UInt64 :=
  (word UInt64.size .word64 value).map UInt64.ofNat

/-- Read a word of 32 bits. -/
def word32 (value : Json) : Except SchemaFault UInt32 :=
  (word UInt32.size .word32 value).map UInt32.ofNat

/-- Read a text. -/
def text : Json → Except SchemaFault String
  | .text value => .ok value
  | other => .error (.wrongType other .text)

/-- Read what may be null. -/
def optional {α : Type} (read : Json → Except SchemaFault α) : Json → Except SchemaFault (Option α)
  | .null => .ok none
  | value => (read value).map some

/-- Read all items of an array in order. -/
def list {α : Type} (read : Json → Except SchemaFault α) : Json → Except SchemaFault (List α)
  | .array items => items.mapM read
  | other => .error (.wrongType other .list)

/-- The name of a record and its fields in the order declared. -/
structure Shape where
  name : String
  fields : List String
  /-- Whether the array form may end early. -/
  openEnded : Bool := false

/-- Look at fields in order, and take each into what was read so far. -/
def visit {σ : Type} (take : σ → String → Json → Except SchemaFault σ) (start : σ)
    (fields : List (String × Json)) : Except SchemaFault σ :=
  fields.foldlM (fun state field => take state field.1 field.2) start

/-- Look at the fields of a record in either of its forms. -/
def visitRecord {σ : Type} (shape : Shape) (take : σ → String → Json → Except SchemaFault σ)
    (start : σ) : Json → Except SchemaFault σ
  | .object fields => visit take start fields
  | .array items =>
    match visit take start (shape.fields.zip items) with
    | .error fault => .error fault
    | .ok state =>
      if items.length < shape.fields.length ∧ !shape.openEnded then
        .error (.tooShort items.length shape.name shape.fields.length)
      else if shape.fields.length < items.length then
        .error (.tooLong items.length shape.fields.length)
      else .ok state
  | other => .error (.wrongType other (.record shape.name))

/-- The value of a field that has to be there. -/
def required {α : Type} (field : String) : Option α → Except SchemaFault α
  | some value => .ok value
  | none => .error (.missing field)

end Schema

namespace Position

/-- The fields read so far. -/
structure Draft where
  line : Option UInt32 := none
  column : Option UInt32 := none

/-- Take a field in. -/
def Draft.take (state : Draft) (field : String) (value : Json) : Except SchemaFault Draft :=
  match field with
  | "line" => (Schema.word32 value).map fun line => { state with line := some line }
  | "column" => (Schema.word32 value).map fun column => { state with column := some column }
  | _ => .ok state

/-- Read a position. -/
def read (value : Json) : Except SchemaFault Position := do
  let state ← Schema.visitRecord { name := "Position", fields := ["line", "column"] } Draft.take {} value
  return ⟨← Schema.required "line" state.line, ← Schema.required "column" state.column⟩

end Position

namespace Range

/-- The fields read so far. -/
structure Draft where
  source : Option String := none
  start : Option Position := none
  stop : Option Position := none

/-- Take a field in. -/
def Draft.take (state : Draft) (field : String) (value : Json) : Except SchemaFault Draft :=
  match field with
  | "source" => (Schema.text value).map fun source => { state with source := some source }
  | "start" => (Position.read value).map fun start => { state with start := some start }
  | "end" => (Position.read value).map fun stop => { state with stop := some stop }
  | _ => .ok state

/-- Read a range. -/
def read (value : Json) : Except SchemaFault Range := do
  let state ← Schema.visitRecord { name := "Range", fields := ["source", "start", "end"] }
    Draft.take {} value
  return ⟨← Schema.required "source" state.source, ← Schema.required "start" state.start,
    ← Schema.required "end" state.stop⟩

end Range

namespace Severity

/-- The severity of a name. -/
def ofName (name : String) : Except SchemaFault Severity :=
  match name with
  | "error" => .ok .error
  | "warning" => .ok .warning
  | _ => .error (.unknownSeverity name)

/-- Read a severity. -/
def read : Json → Except SchemaFault Severity
  | .text name => ofName name
  | .object [(name, value)] =>
    match ofName name with
    | .error fault => .error fault
    | .ok severity =>
      match value with
      | .null => .ok severity
      | .object [] => .ok severity
      | other => .error (.wrongType other .unit)
  | .object _ => .error .notSingleKey
  | other => .error (.wrongType other .variant)

end Severity

namespace Diagnostic

/-- The fields read so far. -/
structure Draft where
  severity : Option Severity := none
  text : Option String := none
  range : Option Range := none

/-- Take a field in. -/
def Draft.take (state : Draft) (field : String) (value : Json) : Except SchemaFault Draft :=
  match field with
  | "kind" => (Severity.read value).map fun severity => { state with severity := some severity }
  | "text" => (Schema.text value).map fun text => { state with text := some text }
  | "range" => (Range.read value).map fun range => { state with range := some range }
  | _ => .ok state

/-- Read a diagnostic. -/
def read (value : Json) : Except SchemaFault Diagnostic := do
  let state ← Schema.visitRecord { name := "Diagnostic", fields := ["kind", "text", "range"] }
    Draft.take {} value
  return ⟨← Schema.required "kind" state.severity, ← Schema.required "text" state.text,
    ← Schema.required "range" state.range⟩

end Diagnostic

namespace CompileLog

/-- Take a field in. -/
def takeField (log : CompileLog) (field : String) (value : Json) : Except SchemaFault CompileLog :=
  match field with
  | "diagnostics" =>
    (Schema.list Diagnostic.read value).map fun diagnostics =>
      { log with diagnostics := diagnostics }
  | _ => .ok log

/-- Read a log. Without diagnostics it is empty. -/
def read (value : Json) : Except SchemaFault CompileLog :=
  Schema.visitRecord { name := "CompileLog", fields := ["diagnostics"], openEnded := true }
    takeField {} value

end CompileLog

namespace CompileResult

/-- The fields read so far. -/
structure Draft where
  id : Option RequestId := none
  log : Option CompileLog := none

/-- Take a field in. -/
def Draft.take (state : Draft) (field : String) (value : Json) : Except SchemaFault Draft :=
  match field with
  | "id" => (Schema.word64 value).map fun id => { state with id := some id }
  | "log" => (CompileLog.read value).map fun log => { state with log := some log }
  | _ => .ok state

/-- Read the fields of a compile response. -/
def read (fields : List (String × Json)) : Except SchemaFault CompileResult := do
  let state ← Schema.visit Draft.take {} fields
  return ⟨← Schema.required "id" state.id, ← Schema.required "log" state.log⟩

end CompileResult

namespace TooltipResult

/-- The fields read so far. -/
structure Draft where
  id : Option RequestId := none
  range : Option Range := none
  tooltip : Option String := none

/-- Take a field in. -/
def Draft.take (state : Draft) (field : String) (value : Json) : Except SchemaFault Draft :=
  match field with
  | "id" => (Schema.word64 value).map fun id => { state with id := some id }
  | "range" =>
    (Schema.optional Range.read value).map fun range => { state with range := range }
  | "tooltip" =>
    (Schema.optional Schema.text value).map fun tooltip => { state with tooltip := tooltip }
  | _ => .ok state

/-- Read the fields of a tooltip response. -/
def read (fields : List (String × Json)) : Except SchemaFault TooltipResult := do
  let state ← Schema.visit Draft.take {} fields
  return ⟨← Schema.required "id" state.id, state.range, state.tooltip⟩

end TooltipResult

namespace Response

/-- Read the response that a JSON value is. -/
def ofJson (line : String) (value : Json) : Except WorkerFault Response :=
  match value with
  | .object fields =>
    match fields.lookup "type" with
    | some (.text kind) =>
      if kind = RequestKind.compile.label then
        ((CompileResult.read fields).map .compile).mapError (.malformed line)
      else if kind = RequestKind.tooltip.label then
        ((TooltipResult.read fields).map .tooltip).mapError (.malformed line)
      else .error (.unknownKind kind)
    | _ => .error (.malformed line .noType)
  | _ => .error (.malformed line .noType)

/-- Read the response that a line is. -/
def read (line : String) : Except WorkerFault Response :=
  match Json.read? line with
  | none => .error (.malformed line .notJson)
  | some value => ofJson line value

end Response
end BuildWatch
