import BuildWatch.Path.Basic
import BuildWatch.Text.Blank
import BuildWatch.Text.Numeral

/-!
# Source locations

A location is written `path:line:column`, both numbers counted from one. The
path may hold colons itself, so a text is cut at its last two colons. The
worker counts from zero; a zero that was put there without reading a text maps
to the first line or column.
-/

namespace BuildWatch

/-- A place in a source file, counted from one. -/
structure Location where
  path : Path
  line : UInt32
  column : UInt32
  deriving DecidableEq, Repr, Inhabited

/-- Why a text is no location. Both causes carry the trimmed text. -/
inductive LocationError where
  | malformed (text : String)
  | zero (text : String)
  deriving DecidableEq, Repr

namespace LocationError

/-- The wording of a cause. -/
def message : LocationError → String
  | .malformed text => "expected `path:line:column`, got `" ++ text ++ "`"
  | .zero text => "line and column are 1-based, got `" ++ text ++ "`"

end LocationError

namespace Location

/-- The text in front of the last two colons and the two texts behind them. -/
def cut? (text : List Char) : Option (List Char × List Char × List Char) :=
  match Path.cutLast ':' text with
  | none => none
  | some (front, column) =>
    match Path.cutLast ':' front with
    | none => none
    | some (path, line) => some (path, line, column)

/-- Read a location from a text without blank characters at its ends. -/
def readTrimmed (text : List Char) : Except LocationError Location :=
  match cut? text with
  | none => .error (.malformed (String.ofList text))
  | some (path, line, column) =>
    if path.isEmpty then .error (.malformed (String.ofList text))
    else
      match Text.word32? line, Text.word32? column with
      | some line, some column =>
        if line = 0 ∨ column = 0 then .error (.zero (String.ofList text))
        else .ok ⟨⟨String.ofList path⟩, line, column⟩
      | _, _ => .error (.malformed (String.ofList text))

/-- Read a location from a text. -/
def read (text : String) : Except LocationError Location := readTrimmed (Text.trimmed text.toList)

/-- The text of a location. -/
def written (location : Location) : String :=
  location.path.text ++ ":" ++ toString location.line ++ ":" ++ toString location.column

/-- Counted from zero, where one and zero both map to zero. -/
def fromZero (number : UInt32) : UInt32 := if number = 0 then 0 else number - 1

/-- Line and column counted from zero. -/
def zeroBased (location : Location) : UInt32 × UInt32 :=
  (fromZero location.line, fromZero location.column)

end Location
end BuildWatch
