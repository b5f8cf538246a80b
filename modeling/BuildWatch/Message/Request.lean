import BuildWatch.Files.Access
import BuildWatch.Json.Printer
import BuildWatch.Terminal.Note

/-!
# Requests

A request names the files to compile, or a place to say something about. Files
are named by path until the request is written: their contents are read at that
moment, and a file that cannot be read as text is left out. A written request is
one line.
-/

namespace BuildWatch

/-- The number that ties a response to its request. -/
abbrev RequestId := UInt64

/-- The two kinds of requests and responses. -/
inductive RequestKind where
  | compile
  | tooltip
  deriving DecidableEq, Repr

namespace RequestKind

/-- The name of a kind, in messages to the worker and to the user. -/
def label : RequestKind → String
  | .compile => "compile"
  | .tooltip => "tooltip-query"

end RequestKind

/-- What every compile request says besides its files. -/
structure CompileFlags where
  target : String
  stopAfterResolve : Bool
  deriving DecidableEq, Repr

/-- A request to compile files. -/
structure CompileRequest where
  id : RequestId
  inputs : List Path
  flags : CompileFlags
  deriving DecidableEq, Repr

/-- A request for what there is to say about a place. Lines and columns count from zero. -/
structure TooltipRequest where
  id : RequestId
  source : String
  line : UInt32
  column : UInt32
  deriving DecidableEq, Repr

/-- A request. -/
inductive Request where
  | compile (request : CompileRequest)
  | tooltip (request : TooltipRequest)
  deriving DecidableEq, Repr

namespace Request

/-- The number of a request. -/
def id : Request → RequestId
  | .compile request => request.id
  | .tooltip request => request.id

/-- The kind of a request. -/
def kind : Request → RequestKind
  | .compile _ => .compile
  | .tooltip _ => .tooltip

/-- The files of a compile request that can be read as text, with their contents,
in the order given. -/
def readInputs (disk : Files.Disk) : List Path → Noted (List (String × String))
  | [] => .quiet []
  | path :: rest =>
    match disk.readText path with
    | .ok contents =>
      (readInputs disk rest).andThen fun later => .quiet ((path.text, contents) :: later)
    | .error fault =>
      (Noted.detail "worker" ("skip unreadable input " ++ path.text ++ ": " ++ fault.message)).andThen
        fun _ => readInputs disk rest

/-- A file with its contents. -/
def inputJson (input : String × String) : Json :=
  .object [("name", .text input.1), ("contents", .text input.2)]

/-- The message that a request makes at a moment. -/
def toJson (disk : Files.Disk) : Request → Noted Json
  | .compile request =>
    (readInputs disk request.inputs).andThen fun inputs =>
      .quiet (.object [
        ("type", .text RequestKind.compile.label),
        ("id", .natural request.id.toNat),
        ("target", .text request.flags.target),
        ("inputs", .array (inputs.map inputJson)),
        ("stopAfterResolve", .bool request.flags.stopAfterResolve)])
  | .tooltip request =>
    .quiet (.object [
      ("type", .text RequestKind.tooltip.label),
      ("id", .natural request.id.toNat),
      ("source", .text request.source),
      ("line", .natural request.line.toNat),
      ("column", .natural request.column.toNat)])

/-- The line that a request makes at a moment, without its end. -/
def written (disk : Files.Disk) (request : Request) : Noted String :=
  (request.toJson disk).andThen fun message => .quiet message.written

end Request
end BuildWatch
