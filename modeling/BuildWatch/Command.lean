import BuildWatch.Location

/-!
# Typed commands

While files are watched, a line typed by the user is a command: `hover` with a
location asks for a tooltip, and `rebuild` compiles again without waiting for a
change. Blank lines mean nothing.
-/

namespace BuildWatch

/-- What a line asks for. -/
inductive Command where
  | hover (location : Location)
  | rebuild
  deriving DecidableEq, Repr

/-- Why a line is no command. -/
inductive CommandError where
  | location (cause : LocationError)
  | unknown (line : String)
  deriving DecidableEq, Repr

namespace CommandError

/-- The wording of a cause. -/
def message : CommandError → String
  | .location cause => cause.message
  | .unknown line =>
    "unknown command `" ++ line ++ "` (expected `hover PATH:LINE:COL` or `rebuild`)"

end CommandError

namespace Command

/-- Read a line. A blank line is no command and no error. -/
def read (line : String) : Except CommandError (Option Command) :=
  let text := Text.trimmed line.toList
  let (word, rest) := Text.firstWord text
  let rest := Text.trimmed rest
  if text.isEmpty then .ok none
  else if word = ['h', 'o', 'v', 'e', 'r'] || word = ['h'] then
    match Location.readTrimmed rest with
    | .ok location => .ok (some (.hover location))
    | .error cause => .error (.location cause)
  else if (word = ['r', 'e', 'b', 'u', 'i', 'l', 'd'] || word = ['r']) && rest.isEmpty then
    .ok (some .rebuild)
  else .error (.unknown (String.ofList text))

end Command
end BuildWatch
