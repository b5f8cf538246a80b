/-!
# Fields of words

A variable or an output that is put in outside of quotes is split at blanks, and
its parts become fields of their own. What stands next to it without a blank stays
part of its first or last field.
-/

namespace BuildWatch.Script

/-- Whether a character separates fields. -/
def isSeparator (c : Char) : Bool := c = ' ' || c = '\t' || c = '\n'

/-- A text without the separators at its ends. -/
def stripped (text : String) : String :=
  String.ofList ((text.toList.dropWhile isSeparator).reverse.dropWhile isSeparator).reverse

/-- Add one character in front of a split. A separator closes the part behind it. -/
def consPart (c : Char) : List Char × List (List Char) → List Char × List (List Char)
  | (part, later) =>
    if isSeparator c then ([], if part.isEmpty then later else part :: later)
    else (c :: part, later)

/-- The parts of a text between separators. -/
def partsOf (text : String) : List String :=
  let (part, later) := text.toList.foldr consPart ([], [])
  (if part.isEmpty then later else part :: later).map String.ofList

/-- The fields of a word: those that are complete, last one first, and the one that
is still open. -/
structure Fields where
  complete : List String := []
  current : Option String := none

namespace Fields

/-- Add a text that is not split. -/
def append (fields : Fields) (text : String) : Fields :=
  { fields with current := some (fields.current.getD "" ++ text) }

/-- Close the open field. -/
def close (fields : Fields) : Fields :=
  match fields.current with
  | none => fields
  | some text => ⟨text :: fields.complete, none⟩

/-- Add texts that are fields of their own, the first of them at the open field. -/
def appendAll (fields : Fields) : List String → Fields
  | [] => fields
  | [last] => fields.append last
  | first :: rest => appendAll (fields.append first).close rest

/-- Add a text that is split at separators. -/
def split (fields : Fields) (text : String) : Fields :=
  match text.toList.head?, text.toList.getLast? with
  | some first, some last =>
    let opened := if isSeparator first then fields.close else fields
    let added := opened.appendAll (partsOf text)
    if isSeparator last then added.close else added
  | _, _ => fields

/-- The fields in order. -/
def toList (fields : Fields) : List String := fields.close.complete.reverse

end Fields

/-- Whether a text matches a pattern with stars and question marks. -/
def fitsPattern : List Char → List Char → Bool
  | [], [] => true
  | '*' :: pattern, [] => fitsPattern pattern []
  | '*' :: pattern, c :: text => fitsPattern pattern (c :: text) || fitsPattern ('*' :: pattern) text
  | '?' :: pattern, _ :: text => fitsPattern pattern text
  | p :: pattern, c :: text => p = c && fitsPattern pattern text
  | _, _ => false
termination_by pattern text => pattern.length + text.length

end BuildWatch.Script
