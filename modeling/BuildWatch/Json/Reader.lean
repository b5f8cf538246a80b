import BuildWatch.Json.Token
import BuildWatch.Json.Value

/-!
# Reading JSON

Tokens are read one after the other. The arrays and objects that are still open
are kept in a list, innermost first, together with what may come next. At most
127 of them are open at a time. A text is read when its tokens make up one value
and nothing is left.
-/

namespace BuildWatch.Json

/-- An array or object that is still open. Items and fields are those read so
far; an object also has the key whose value is being read. -/
inductive Frame where
  | array (items : List Json)
  | object (fields : List (String × Json)) (key : String)

/-- What may come next. After a comma a closing mark is no more allowed. -/
inductive Expecting where
  | value
  | valueOrClose
  | key
  | keyOrClose
  | colon
  | more
  | nothing
  deriving DecidableEq, Repr

/-- Where reading stands. The value is there once a whole one was read. -/
structure Reading where
  frames : List Frame
  expecting : Expecting
  value : Json

/-- How many arrays and objects may be open at a time. -/
def depthLimit : Nat := 127

/-- The start of a text. -/
def Reading.start : Reading := ⟨[], .value, .null⟩

/-- A whole value was read: it goes into the innermost open container. -/
def Reading.close (frames : List Frame) (value : Json) : Reading :=
  match frames with
  | [] => ⟨[], .nothing, value⟩
  | .array items :: outer => ⟨.array (items ++ [value]) :: outer, .more, .null⟩
  | .object fields key :: outer => ⟨.object (putField key value fields) "" :: outer, .more, .null⟩

/-- Begin an array or object, unless too many are open. -/
def Reading.enter (frames : List Frame) (frame : Frame) (expecting : Expecting) : Option Reading :=
  if frames.length < depthLimit then some ⟨frame :: frames, expecting, .null⟩ else none

/-- Begin a value. -/
def Reading.begin (frames : List Frame) : Token → Option Reading
  | .null => some (close frames .null)
  | .bool value => some (close frames (.bool value))
  | .number value => some (close frames (.number value))
  | .text value => some (close frames (.text value))
  | .openArray => enter frames (.array []) .valueOrClose
  | .openObject => enter frames (.object [] "") .keyOrClose
  | _ => none

/-- End the innermost open container. -/
def Reading.endFrame (frames : List Frame) (token : Token) : Option Reading :=
  match frames, token with
  | .array items :: outer, .closeArray => some (close outer (.array items))
  | .object fields _ :: outer, .closeObject => some (close outer (.object fields))
  | _, _ => none

/-- Read one token. -/
def Reading.step (reading : Reading) (token : Token) : Option Reading :=
  match reading.expecting with
  | .value => begin reading.frames token
  | .valueOrClose =>
    match token with
    | .closeArray => endFrame reading.frames token
    | _ => begin reading.frames token
  | .key => takeKey reading token
  | .keyOrClose =>
    match token with
    | .closeObject => endFrame reading.frames token
    | _ => takeKey reading token
  | .colon =>
    match token with
    | .colon => some { reading with expecting := .value }
    | _ => none
  | .more =>
    match token, reading.frames with
    | .comma, .array _ :: _ => some { reading with expecting := .value }
    | .comma, .object _ _ :: _ => some { reading with expecting := .key }
    | _, _ => endFrame reading.frames token
  | .nothing => none
where
  /-- Read the key of a field. -/
  takeKey (reading : Reading) (token : Token) : Option Reading :=
    match token, reading.frames with
    | .text key, .object fields _ :: outer => some ⟨.object fields key :: outer, .colon, .null⟩
    | _, _ => none

/-- The value at the end of the tokens. -/
def Reading.finish (reading : Reading) : Option Json :=
  match reading.expecting with
  | .nothing => some reading.value
  | _ => none

/-- The value that tokens make up. -/
def ofTokens? (tokens : List Token) : Option Json :=
  (tokens.foldlM Reading.step Reading.start).bind Reading.finish

/-- Read a text. -/
def read? (text : String) : Option Json := (Token.tokens? text.toList).bind ofTokens?

end BuildWatch.Json
