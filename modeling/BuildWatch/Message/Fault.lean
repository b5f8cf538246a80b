import BuildWatch.Files.Fault
import BuildWatch.Json.Value
import BuildWatch.Message.Request
import BuildWatch.Text.Quoted

/-!
# What goes wrong between the program and its worker

A line that is no message is malformed, for a stated cause: it is no JSON text,
it has no type, or a value does not fit where it stands. A message of an unknown
type is no response. A response nobody asked for is unsolicited. The worker can
fail to start, to write text, or to go on. None of these can be recovered from.
-/

namespace BuildWatch

/-- What a value should have been. -/
inductive Expected where
  | word64
  | word32
  | text
  | list
  | variant
  | unit
  | record (name : String)
  deriving DecidableEq, Repr

/-- Why a line is no message. -/
inductive SchemaFault where
  | notJson
  | noType
  | missing (field : String)
  | wrongType (found : Json) (expected : Expected)
  | outOfRange (value : Int) (expected : Expected)
  | notSingleKey
  | unknownSeverity (name : String)
  | tooShort (length : Nat) (record : String) (arity : Nat)
  | tooLong (length arity : Nat)
  deriving Repr

/-- What goes wrong with a worker. -/
inductive WorkerFault where
  | malformed (line : String) (cause : SchemaFault)
  | unknownKind (kind : String)
  | process (reason : String)
  | unsolicited (id : RequestId)
  | spawn (program : String) (cause : Files.Fault)
  | notText
  deriving Repr

namespace Expected

/-- The name of what was expected. -/
def message : Expected → String
  | .word64 => "u64"
  | .word32 => "u32"
  | .text => "a string"
  | .list => "a sequence"
  | .variant => "string or map"
  | .unit => "unit"
  | .record name => "struct " ++ name

end Expected

namespace SchemaFault

/-- What a value is called in a message. -/
def described : Json → String
  | .null => "null"
  | .bool value => "boolean `" ++ toString value ++ "`"
  | .number (.integer value) => "integer `" ++ toString value ++ "`"
  | .number (.decimal negative significand exponent) =>
    "floating point `" ++ Json.Number.decimalText negative significand exponent ++ "`"
  | .text value => "string " ++ Text.quoted value
  | .array _ => "sequence"
  | .object _ => "map"

/-- The wording of a cause. -/
def message : SchemaFault → String
  | .notJson => "not a JSON text"
  | .noType => "missing string field `type`"
  | .missing field => "missing field `" ++ field ++ "`"
  | .wrongType found expected =>
    "invalid type: " ++ described found ++ ", expected " ++ expected.message
  | .outOfRange value expected =>
    "invalid value: integer `" ++ toString value ++ "`, expected " ++ expected.message
  | .notSingleKey => "invalid value: map, expected map with a single key"
  | .unknownSeverity name =>
    "unknown variant `" ++ name ++ "`, expected `error` or `warning`"
  | .tooShort length record arity =>
    "invalid length " ++ toString length ++ ", expected struct " ++ record ++ " with " ++
      toString arity ++ " elements"
  | .tooLong length arity =>
    "invalid length " ++ toString length ++ ", expected " ++ toString arity ++
      (if arity = 1 then " element" else " elements") ++ " in sequence"

end SchemaFault

namespace WorkerFault

/-- The wording of a fault. -/
def message : WorkerFault → String
  | .malformed line cause => "malformed worker message (" ++ cause.message ++ "): " ++ line
  | .unknownKind kind => "unknown response kind `" ++ kind ++ "`"
  | .process reason => "worker process failed: " ++ reason
  | .unsolicited id => "unsolicited response for request #" ++ toString id
  | .spawn program _ => "failed to spawn worker `" ++ program ++ "`"
  | .notText => "worker I/O error"

/-- What a fault was caused by, if that is said apart. -/
def cause? : WorkerFault → Option String
  | .spawn _ cause => some cause.message
  | .notText => some Files.Fault.notText.message
  | _ => none

end WorkerFault
end BuildWatch
