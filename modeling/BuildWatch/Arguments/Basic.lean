import BuildWatch.Location

/-!
# Arguments

The words after the program's name say what to do and under which settings. The
first word that is no option names the job. The options of the program may stand
in front of that word and behind it, and what stands behind it counts.
-/

namespace BuildWatch

/-- When output is coloured. -/
inductive Colour where
  | auto
  | always
  | never
  deriving DecidableEq, Repr

/-- The three jobs. -/
inductive Verb where
  | watch
  | check
  | hover
  deriving DecidableEq, Repr

/-- What to do. -/
inductive Job where
  | watch
  | check
  | hover (location : Location)
  deriving DecidableEq, Repr

/-- What the words after the program's name say. -/
structure Arguments where
  colour : Colour := .auto
  config : Path := ⟨"kiln.toml"⟩
  verbose : Bool := false
  worker : Option String := none
  target : Option String := none
  job : Job
  roots : List Path := []
  deriving DecidableEq, Repr

/-- Why there are no arguments to work with. Asking for help or for the version is
among the causes, and so is saying nothing. -/
inductive ArgumentsError where
  | nothing
  | help
  | version
  | noVerb
  | unknownVerb (word : String)
  | unknown (word : String)
  | noLocation
  | badLocation (cause : LocationError)
  | badValue (option : String)
  | repeated (option : String)
  | needlessValue (option : String)
  deriving DecidableEq, Repr

namespace ArgumentsError

/-- The wording of a cause. -/
def message : ArgumentsError → String
  | .nothing => "nothing to do; name one of watch, check, hover"
  | .help => "kiln [OPTIONS] watch|check|hover [ARGUMENTS]"
  | .version => "kiln 0.3.0"
  | .noVerb => "a command is missing; name one of watch, check, hover"
  | .unknownVerb word => "unknown command `" ++ word ++ "`"
  | .unknown word => "unexpected argument `" ++ word ++ "`"
  | .noLocation => "the location is missing"
  | .badLocation cause => "invalid location: " ++ cause.message
  | .badValue option => "`" ++ option ++ "` has no usable value"
  | .repeated option => "`" ++ option ++ "` is given more than once"
  | .needlessValue option => "`" ++ option ++ "` takes no value"

end ArgumentsError
end BuildWatch
