import BuildWatch.Json.Number

/-!
# JSON values

An object keeps its keys in the order in which they were first written. A key
that is written again keeps its place and takes the new value.
-/

namespace BuildWatch

/-- A JSON value. -/
inductive Json where
  | null
  | bool (value : Bool)
  | number (value : Json.Number)
  | text (value : String)
  | array (items : List Json)
  | object (fields : List (String × Json))
  deriving Repr, BEq, Inhabited

namespace Json

/-- Write a key of an object. -/
def putField (key : String) (value : Json) : List (String × Json) → List (String × Json)
  | [] => [(key, value)]
  | (other, old) :: rest =>
    if other = key then (key, value) :: rest else (other, old) :: putField key value rest

/-- The value under a key of an object; nothing under any key of another value. -/
def field? (key : String) : Json → Option Json
  | .object fields => fields.lookup key
  | _ => none

/-- An integer that is not negative. -/
def natural (value : Nat) : Json := .number (.integer value)

end Json
end BuildWatch
