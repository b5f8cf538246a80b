import BuildWatch.Arguments.Basic

/-!
# Reading arguments

Words are read from left to right, on the level of the program until a word names
the job, and on the level of the job from there. An option that takes a value may
have it attached, and otherwise waits for it: the next word is its value unless it
looks like an option itself. Roots without an option wait for more roots. What
waits is put in place when the next option begins, or at the end of its level; so
a bad value is found there, and the program's level ends after that of the job.

Behind two dashes no word is an option or names a job.
-/

namespace BuildWatch

namespace Verb

/-- The job that a word names. -/
def ofName? : String → Option Verb
  | "watch" => some .watch
  | "w" => some .watch
  | "check" => some .check
  | "c" => some .check
  | "hover" => some .hover
  | "h" => some .hover
  | _ => none

end Verb

/-- The places that values go to. -/
inductive ValueSlot where
  | colour
  | config
  | worker
  | target
  | rootOption
  | location
  | roots
  deriving DecidableEq, Repr

namespace ValueSlot

/-- What a place is called in messages. -/
def label : ValueSlot → String
  | .colour => "--color"
  | .config => "--config"
  | .worker => "--worker"
  | .target => "--target"
  | .rootOption => "--root"
  | .location => "PATH:LINE:COL"
  | .roots => "ROOT"

end ValueSlot

/-- What the name of an option stands for. -/
inductive OptionName where
  | verbose
  | help
  | version
  | valued (slot : ValueSlot)
  deriving DecidableEq, Repr

namespace OptionName

/-- The option with a long name, on the level of the program or of a job. -/
def ofLong? (verb : Option Verb) (name : List Char) : Option OptionName :=
  match String.ofList name with
  | "color" => some (.valued .colour)
  | "config" => some (.valued .config)
  | "verbose" => some .verbose
  | "worker" => some (.valued .worker)
  | "target" => some (.valued .target)
  | "help" => some .help
  | "version" => if verb.isNone then some .version else none
  | "root" => if verb = some .hover then some (.valued .rootOption) else none
  | _ => none

/-- The option with a name of one letter. -/
def ofShort? (verb : Option Verb) : Char → Option OptionName
  | 'C' => some (.valued .config)
  | 'v' => some .verbose
  | 'h' => some .help
  | 'V' => if verb.isNone then some .version else none
  | 'r' => if verb = some .hover then some (.valued .rootOption) else none
  | _ => none

end OptionName

/-- What was said on one level so far. -/
structure GivenArguments where
  colour : Option Colour := none
  config : Option Path := none
  verbose : Bool := false
  worker : Option String := none
  target : Option String := none
  location : Option Location := none
  roots : List Path := []
  deriving DecidableEq, Repr

namespace GivenArguments

/-- The colour of a name. -/
def colour? : String → Option Colour
  | "auto" => some .auto
  | "always" => some .always
  | "never" => some .never
  | _ => none

/-- A path that a value names; the empty text names none. -/
def pathOf (slot : ValueSlot) (text : String) : Except ArgumentsError Path :=
  if text.isEmpty then .error (.badValue slot.label) else .ok ⟨text⟩

/-- Whether a place is taken that takes only one value. -/
def isTaken (given : GivenArguments) : ValueSlot → Bool
  | .colour => given.colour.isSome
  | .config => given.config.isSome
  | .worker => given.worker.isSome
  | .target => given.target.isSome
  | .location => given.location.isSome
  | .rootOption => false
  | .roots => false

/-- Put one value in its place. -/
def put (given : GivenArguments) (slot : ValueSlot) (value : String) :
    Except ArgumentsError GivenArguments :=
  match slot with
  | .colour =>
    match colour? value with
    | some colour => .ok { given with colour := some colour }
    | none => .error (.badValue slot.label)
  | .config => (pathOf slot value).map fun path => { given with config := some path }
  | .worker => .ok { given with worker := some value }
  | .target => .ok { given with target := some value }
  | .location =>
    match Location.read value with
    | .ok location => .ok { given with location := some location }
    | .error cause => .error (.badLocation cause)
  | .rootOption => (pathOf slot value).map fun path => { given with roots := given.roots ++ [path] }
  | .roots => (pathOf slot value).map fun path => { given with roots := given.roots ++ [path] }

/-- Put all values of one option in place. -/
def putAll (given : GivenArguments) (slot : ValueSlot) (values : List String) :
    Except ArgumentsError GivenArguments :=
  if values.isEmpty then .error (.badValue slot.label)
  else if given.isTaken slot then .error (.repeated slot.label)
  else values.foldlM (put · slot ·) given

end GivenArguments

/-- The reading of one level: what is in place, what waits, whether the next word
may be a value, and whether two dashes were read. -/
structure ArgumentsLevel where
  verb : Option Verb
  given : GivenArguments := {}
  waiting : Option (ValueSlot × List String) := none
  wantsValue : Bool := false
  plainOnly : Bool := false

namespace ArgumentsLevel

/-- Put what waits in place. -/
def settle (level : ArgumentsLevel) : Except ArgumentsError ArgumentsLevel :=
  match level.waiting with
  | none => .ok level
  | some (slot, values) =>
    (level.given.putAll slot values).map fun given => { level with given := given, waiting := none }

/-- Take an option without a value. -/
def takeFlag (level : ArgumentsLevel) (name : OptionName) : Except ArgumentsError ArgumentsLevel :=
  match level.settle with
  | .error cause => .error cause
  | .ok level =>
    let level := { level with wantsValue := false }
    match name with
    | .help => .error .help
    | .version => .error .version
    | .verbose =>
      if level.given.verbose then .error (.repeated "--verbose")
      else .ok { level with given := { level.given with verbose := true } }
    | .valued _ => .ok level

/-- Take an option with the value that is attached to it, or let it wait for one. -/
def takeValued (level : ArgumentsLevel) (slot : ValueSlot) (attached : Option String) :
    Except ArgumentsError ArgumentsLevel :=
  match level.settle with
  | .error cause => .error cause
  | .ok level =>
    match attached with
    | some value =>
      (level.given.putAll slot [value]).map fun given =>
        { level with given := given, wantsValue := false }
    | none => .ok { level with waiting := some (slot, []), wantsValue := true }

/-- Take a word that starts with two dashes, without them. -/
def takeLong (level : ArgumentsLevel) (text : List Char) : Except ArgumentsError ArgumentsLevel :=
  let name := text.takeWhile (· ≠ '=')
  let attached :=
    match text.dropWhile (· ≠ '=') with
    | _ :: value => some (String.ofList value)
    | [] => none
  match OptionName.ofLong? level.verb name, attached with
  | none, _ => .error (.unknown (String.ofList ('-' :: '-' :: text)))
  | some (.valued slot), attached => takeValued level slot attached
  | some flag, none => takeFlag level flag
  | some _, some _ => .error (.needlessValue (String.ofList ('-' :: '-' :: name)))

/-- The value attached to a letter, with or without an equals sign between them. -/
def attachedTo : List Char → Option String
  | [] => none
  | '=' :: value => some (String.ofList value)
  | value => some (String.ofList value)

/-- Take the letters of a word that starts with one dash. -/
def takeLetters (level : ArgumentsLevel) : List Char → Except ArgumentsError ArgumentsLevel
  | [] => .ok level
  | letter :: rest =>
    match OptionName.ofShort? level.verb letter with
    | none => .error (.unknown (String.ofList ['-', letter]))
    | some (.valued slot) => takeValued level slot (attachedTo rest)
    | some flag =>
      match takeFlag level flag with
      | .error cause => .error cause
      | .ok level => takeLetters level rest

/-- Let a word wait in a place, behind the words that wait there already. -/
def await (level : ArgumentsLevel) (slot : ValueSlot) (word : String) :
    Except ArgumentsError ArgumentsLevel :=
  match slot, level.waiting with
  | .roots, some (.roots, words) => .ok { level with waiting := some (.roots, words ++ [word]) }
  | _, _ =>
    match level.settle with
    | .error cause => .error cause
    | .ok level => .ok { level with waiting := some (slot, [word]), wantsValue := false }

/-- Whether the location of a job was read or waits. -/
def hasLocation (level : ArgumentsLevel) : Bool :=
  level.given.location.isSome || level.waiting.any (·.1 = .location)

/-- Take a word that is no option. -/
def takeWord (level : ArgumentsLevel) (word : String) : Except ArgumentsError ArgumentsLevel :=
  match level.verb with
  | some .hover => if level.hasLocation then .error (.unknown word) else await level .location word
  | some _ => await level .roots word
  | none =>
    if level.plainOnly && ((Verb.ofName? word).isSome || word = "help") then .error (.unknown word)
    else .error (.unknownVerb word)

/-- Take a word on a level. -/
def take (level : ArgumentsLevel) (word : String) : Except ArgumentsError ArgumentsLevel :=
  if level.plainOnly then takeWord level word
  else
    match word.toList with
    | ['-', '-'] => .ok { level with plainOnly := true }
    | '-' :: '-' :: text => takeLong level text
    | '-' :: letter :: rest => takeLetters level (letter :: rest)
    | _ =>
      match level.wantsValue, level.waiting with
      | true, some (slot, values) =>
        .ok { level with waiting := some (slot, values ++ [word]), wantsValue := false }
      | _, _ => takeWord level word

end ArgumentsLevel

namespace Arguments

/-- What is said behind the word for help. -/
def helpFor : List String → ArgumentsError
  | [] => .help
  | [word] => if (Verb.ofName? word).isSome || word = "help" then .help else .unknownVerb word
  | first :: word :: _ =>
    if (Verb.ofName? first).isSome || first = "help" then .unknownVerb word else .unknownVerb first

/-- Read all words of a job's level. -/
def readJob (verb : Verb) (words : List String) : Except ArgumentsError GivenArguments := do
  let level ← words.foldlM ArgumentsLevel.take { verb := some verb }
  let level ← level.settle
  if verb = .hover ∧ level.given.location.isNone then .error .noLocation else .ok level.given

/-- The job of a verb, whose location was read if it needs one. -/
def jobOf (verb : Verb) (given : GivenArguments) : Except ArgumentsError Job :=
  match verb, given.location with
  | .watch, _ => .ok .watch
  | .check, _ => .ok .check
  | .hover, some location => .ok (.hover location)
  | .hover, none => .error .noLocation

/-- Put the two levels together. -/
def combine (verb : Verb) (outer inner : GivenArguments) : Except ArgumentsError Arguments :=
  (jobOf verb inner).map fun job =>
    { colour := (inner.colour.or outer.colour).getD .auto
      config := (inner.config.or outer.config).getD ⟨"kiln.toml"⟩
      verbose := inner.verbose || outer.verbose
      worker := inner.worker.or outer.worker
      target := inner.target.or outer.target
      job := job
      roots := inner.roots }

/-- Read the rest of the words on the program's level. -/
def readFrom (level : ArgumentsLevel) : List String → Except ArgumentsError Arguments
  | [] =>
    match level.settle with
    | .error cause => .error cause
    | .ok level => if level.given = {} then .error .nothing else .error .noVerb
  | word :: rest =>
    match if level.plainOnly || level.wantsValue then none else Verb.ofName? word with
    | some verb => do
      let inner ← readJob verb rest
      let outer ← level.settle
      combine verb outer.given inner
    | none =>
      if !level.plainOnly && !level.wantsValue && word = "help" then .error (helpFor rest)
      else
        match level.take word with
        | .error cause => .error cause
        | .ok level => readFrom level rest

/-- Read the words after the program's name. -/
def read (words : List String) : Except ArgumentsError Arguments := readFrom { verb := none } words

end Arguments
end BuildWatch
