/-!
# Values of a settings file

Settings are written in TOML. Of a number with a fraction, and of a date or a
time, only the kind is kept, because no setting takes one.

Tables come about in four ways, and what may be added to a table later depends
on the way it came about. Entries keep the order in which they were written.
-/

namespace BuildWatch.Toml

/-- How a table came about: written between braces, named by its own header, named
only as a step of a longer header, or named as a step of a dotted key. -/
inductive Origin where
  | braces
  | header
  | step
  | dotted
  deriving DecidableEq, Repr

/-- A value. The rows are the tables of repeated headers in double brackets. -/
inductive Value where
  | text (value : String)
  | integer (value : Int)
  | flag (value : Bool)
  | decimal
  | moment
  | list (items : List Value)
  | table (origin : Origin) (entries : List (String × Value))
  | rows (tables : List (List (String × Value)))
  deriving Repr, Inhabited

/-- The entries of a table. -/
abbrev Entries := List (String × Value)

namespace Entries

/-- The entries with another value under a key that is there. -/
def replace (key : String) (value : Value) : Entries → Entries
  | [] => []
  | (other, old) :: rest =>
    if other = key then (key, value) :: rest else (other, old) :: replace key value rest

/-- The entries without a key. -/
def erase (key : String) (entries : Entries) : Entries := entries.filter (·.1 ≠ key)

/-- Add a value under a dotted key. Tables named on the way are made as needed. The
table that gets the value has to be the one the key is written in, or one that only
dotted keys named before; on the way to it lie tables that no header named itself. -/
def add (value : Value) : List String → Entries → Option Entries
  | [], _ => none
  | [key], entries =>
    if (entries.lookup key).isSome then none else some (entries ++ [(key, value)])
  | key :: rest, entries =>
    match entries.lookup key with
    | none => (add value rest []).map fun inner => entries ++ [(key, .table .dotted inner)]
    | some (.table .dotted inner) =>
      (add value rest inner).map fun inner => replace key (.table .dotted inner) entries
    | some (.table .step inner) =>
      if rest.length = 1 then none
      else (add value rest inner).map fun inner => replace key (.table .step inner) entries
    | some (.rows tables) =>
      if rest.length = 1 then none
      else
        (add value rest (tables.getLast?.getD [])).map fun inner =>
          replace key (.rows (tables.dropLast ++ [inner])) entries
    | some _ => none

/-- Change the entries at the end of a header's steps. Tables named on the way are
made as needed, and of rows the last one is meant. -/
def below (change : Entries → Option Entries) : List String → Entries → Option Entries
  | [], entries => change entries
  | key :: rest, entries =>
    match entries.lookup key with
    | none => (below change rest []).map fun inner => entries ++ [(key, .table .step inner)]
    | some (.table .braces _) => none
    | some (.table origin inner) =>
      (below change rest inner).map fun inner => replace key (.table origin inner) entries
    | some (.rows tables) =>
      (below change rest (tables.getLast?.getD [])).map fun inner =>
        replace key (.rows (tables.dropLast ++ [inner])) entries
    | some _ => none

end Entries

/-- A line of a file that says something: a header, or a value under a dotted key. -/
inductive Line where
  | table (steps : List String) (key : String)
  | row (steps : List String) (key : String)
  | entry (path : List String) (value : Value)
  deriving Repr

/-- The values under their keys that follow a header, and the headers behind them. -/
structure Tail where
  own : List (List String × Value)
  sections : List (Line × List (List String × Value))

/-- Put a line in front of those that follow it. -/
def Tail.push (line : Line) (tail : Tail) : Tail :=
  match line with
  | .entry path value => { tail with own := (path, value) :: tail.own }
  | header => ⟨[], (header, tail.own) :: tail.sections⟩

namespace Entries

/-- Add values under their keys in order. -/
def fill (lines : List (List String × Value)) (start : Entries) : Option Entries :=
  lines.foldlM (fun entries line => entries.add line.2 line.1) start

/-- Add a header with the values that follow it. A table may have been a step of an
earlier header, and then keeps what was put below it, but takes the place where its
own header stands. -/
def addSection (entries : Entries) : Line × List (List String × Value) → Option Entries
  | (.table steps key, lines) =>
    entries.below (fun around =>
      match around.lookup key with
      | none => (fill lines []).map fun inner => around ++ [(key, .table .header inner)]
      | some (.table .step taken) =>
        (fill lines taken).map fun inner => around.erase key ++ [(key, .table .header inner)]
      | some _ => none) steps
  | (.row steps key, lines) =>
    entries.below (fun around =>
      match around.lookup key with
      | none => (fill lines []).map fun inner => around ++ [(key, .rows [inner])]
      | some (.rows tables) =>
        (fill lines []).map fun inner => around.replace key (.rows (tables ++ [inner]))
      | some _ => none) steps
  | (.entry _ _, _) => none

/-- The table that the lines of a whole file make. -/
def ofLines (lines : List Line) : Option Entries :=
  let tail := lines.foldr Tail.push ⟨[], []⟩
  match fill tail.own [] with
  | none => none
  | some top => tail.sections.foldlM addSection top

end Entries
end BuildWatch.Toml
