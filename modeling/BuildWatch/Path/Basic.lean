import BuildWatch.Text.Encoding

/-!
# Paths and their components

A path is the bytes it was written as, and its meaning is its list of
components: the root, a leading single dot, a double dot, or a name. Empty
pieces and further single dots carry no meaning, so `/x/`, `/x//` and `/x/.`
are three spellings of one path. A double dot is never folded, because what it
leads to depends on links. The bytes are mostly those of a text, and it is as a
text that a path is shown.

Operations that cut a path cut its bytes at the border of a component, so what
is in between is kept as it was written.
-/

namespace BuildWatch

/-- One step of a path. -/
inductive Component where
  | root
  | here
  | up
  | name (bytes : Bytes)
  deriving DecidableEq, Repr, Inhabited

/-- A path, as the bytes it was written as. -/
structure Path where
  bytes : Bytes
  deriving DecidableEq, Repr, Inhabited

namespace Path

/-- The byte between two names. -/
abbrev slash : UInt8 := 0x2F

/-- The byte that a name without meaning consists of. -/
abbrev dot : UInt8 := 0x2E

/-- The path that is written as a text. -/
abbrev ofText (text : String) : Path := ⟨text⟩

/-- The text that a path is shown as. -/
def text (path : Path) : String := Text.shown path.bytes

/-- A component with the positions of its first byte and after its last one. -/
structure Span where
  component : Component
  start : Nat
  stop : Nat
  deriving DecidableEq, Repr

/-- The pieces between slashes, each with the position where it starts. The open
piece is given by its start and its bytes in reverse. -/
def piecesFrom (start : Nat) (piece : Bytes) : Bytes → List (Nat × Bytes)
  | [] => [(start, piece.reverse)]
  | byte :: rest =>
    if byte = slash then (start, piece.reverse) :: piecesFrom (start + piece.length + 1) [] rest
    else piecesFrom start (byte :: piece) rest

/-- What a piece means: nothing when it is empty, or a single dot that does not
open the path. -/
def pieceSpan? : Nat × Bytes → Option Span
  | (start, piece) =>
    if piece = [] then none
    else if piece = [dot] then if start = 0 then some ⟨.here, 0, 1⟩ else none
    else if piece = [dot, dot] then some ⟨.up, start, start + 2⟩
    else some ⟨.name piece, start, start + piece.length⟩

/-- Whether bytes start with a slash. -/
def isRooted (bytes : Bytes) : Bool := bytes.head? == some slash

/-- The components of bytes with their places in them. -/
def spansOf (bytes : Bytes) : List Span :=
  let body := (piecesFrom 0 [] bytes).filterMap pieceSpan?
  if isRooted bytes then ⟨.root, 0, 1⟩ :: body else body

/-- The components of a path with their places in its bytes. -/
def spans (path : Path) : List Span := spansOf path.bytes

/-- What a path means. -/
def components (path : Path) : List Component := path.spans.map Span.component

/-- Whether two paths are spellings of one path. -/
def same (left right : Path) : Bool := left.components == right.components

/-- Whether a path starts at the root. -/
def isAbsolute (path : Path) : Bool := isRooted path.bytes

/-- The bytes between two positions. -/
def slice (path : Path) (start stop : Nat) : Path := ⟨(path.bytes.take stop).drop start⟩

/-- The second path, read from the first one: itself when it is absolute, and
otherwise the bytes of both with a slash between them unless one stands there. -/
def join (base path : Path) : Path :=
  if path.isAbsolute then path
  else if base.bytes.isEmpty || base.bytes.getLast? == some slash then ⟨base.bytes ++ path.bytes⟩
  else ⟨base.bytes ++ slash :: path.bytes⟩

/-- A name below a path. -/
def child (base : Path) (name : Bytes) : Path := base.join ⟨name⟩

/-- The path without its last component; a path that has none, or only the root,
has no parent. -/
def parent? (path : Path) : Option Path :=
  match path.spans.reverse with
  | [] => none
  | last :: earlier =>
    if last.component = .root then none
    else some (path.slice 0 ((earlier.head?.map Span.stop).getD 0))

/-- The last component when it is a name. -/
def fileName? (path : Path) : Option Bytes :=
  match path.components.getLast? with
  | some (.name bytes) => some bytes
  | _ => none

/-- What stands before and after the last occurrence of a mark. -/
def cutLast {α : Type} [DecidableEq α] (mark : α) : List α → Option (List α × List α)
  | [] => none
  | c :: rest =>
    match cutLast mark rest with
    | some (before, after) => some (c :: before, after)
    | none => if c = mark then some ([], rest) else none

section Cutting

variable {α : Type} [DecidableEq α]

/-- A text without the mark is not cut. -/
theorem cutLast_eq_none_iff (mark : α) (text : List α) :
    cutLast mark text = none ↔ mark ∉ text := by
  induction text with
  | nil => simp [cutLast]
  | cons c rest inductionHypothesis =>
    cases cut : cutLast mark rest with
    | some parts =>
      have within : mark ∈ rest := by
        rw [cut] at inductionHypothesis
        simpa using inductionHypothesis
      simp [cutLast, cut, within]
    | none =>
      have outside : mark ∉ rest := inductionHypothesis.mp cut
      by_cases same : c = mark
      · simp [cutLast, cut, same]
      · simp [cutLast, cut, same, outside, Ne.symm same]

/-- A text is cut at the mark that no other one follows. -/
theorem cutLast_eq_some_iff (mark : α) (text before after : List α) :
    cutLast mark text = some (before, after) ↔ text = before ++ mark :: after ∧ mark ∉ after := by
  constructor
  · intro cut
    induction text generalizing before with
    | nil => simp [cutLast] at cut
    | cons c rest inductionHypothesis =>
      rw [cutLast] at cut
      split at cut
      · rename_i front back later
        obtain ⟨rfl, rfl⟩ := Prod.mk.inj (Option.some.inj cut)
        obtain ⟨whole, last⟩ := inductionHypothesis front later
        exact ⟨congrArg (c :: ·) whole, last⟩
      · rename_i later
        split at cut
        · rename_i same
          obtain ⟨rfl, rfl⟩ := Prod.mk.inj (Option.some.inj cut)
          exact ⟨congrArg (· :: rest) same, (cutLast_eq_none_iff mark rest).mp later⟩
        · simp at cut
  · rintro ⟨rfl, last⟩
    induction before with
    | nil => simp [cutLast, (cutLast_eq_none_iff mark after).mpr last]
    | cons c front inductionHypothesis => simp [cutLast, inductionHypothesis]

end Cutting

/-- What follows the last dot of a file name, unless nothing stands before it. -/
def extension? (path : Path) : Option Bytes :=
  match path.fileName? with
  | none => none
  | some name =>
    match cutLast dot name with
    | some (_ :: _, after) => some after
    | _ => none

/-- Whether the first path's components open those of the second. -/
def isPrefixOf (base path : Path) : Bool := base.components.isPrefixOf path.components

/-- The bytes after the components of a base. With an empty base nothing is cut in
front; what follows the last component is cut in any case. -/
def stripPrefix? (base path : Path) : Option Path :=
  let taken := base.components.length
  if base.isPrefixOf path then
    let stop := (path.spans.getLast?.map Span.stop).getD 0
    let start := if taken = 0 then 0 else ((path.spans.drop taken).head?.map Span.start).getD stop
    some (path.slice start stop)
  else none

/-- How a path below a base is shown: relative to it, and any other path in full. -/
def relativeTo (base path : Path) : Path := (stripPrefix? base path).getD path

example : (Path.mk "/x//y/./").components = [.root, .name "x", .name "y"] := by decide
example : (Path.mk "./a/../b").components = [.here, .name "a", .up, .name "b"] := by decide
example : (Path.mk "/a//b/.").parent? = some ⟨"/a"⟩ := by decide
example : (Path.mk "a").parent? = some ⟨""⟩ := by decide
example : stripPrefix? ⟨"/p/"⟩ ⟨"/p//src/a.sk/"⟩ = some ⟨"src/a.sk"⟩ := by decide

end Path
end BuildWatch
