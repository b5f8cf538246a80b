import BuildWatch.Path.Basic

/-!
# The order of paths and sets of paths

Paths are ordered component by component, a shorter path before those it
opens. The root comes first, then a single dot, a double dot, and the names in
the order of their bytes. So `a/b` comes before `a-b`, although a slash follows
a dash.

A set of paths is a list without two spellings of one path, and the one that
came first is kept.
-/

namespace BuildWatch

namespace Component

/-- The class of a component in the order of paths. -/
def rank : Component → Nat
  | .root => 0
  | .here => 1
  | .up => 2
  | .name _ => 3

/-- The name of a component, empty when it is no name. -/
def nameBytes : Component → Bytes
  | .name bytes => bytes
  | _ => []

/-- Strictly before in the order of paths. -/
def before (left right : Component) : Bool :=
  left.rank < right.rank || (left.rank == right.rank && left.nameBytes < right.nameBytes)

end Component

namespace Path

/-- Whether one list of components comes before another or is equal to it. -/
def notAfter : List Component → List Component → Bool
  | [], _ => true
  | _ :: _, [] => false
  | left :: lefts, right :: rights =>
    if left = right then notAfter lefts rights else left.before right

/-- Whether a path comes before another in the order of paths, or means the same. -/
def le (left right : Path) : Bool := notAfter left.components right.components

/-- Paths in order; spellings of one path stay in the order given. -/
def sort (paths : List Path) : List Path := paths.mergeSort le

/-- Whether a list holds some spelling of the path. -/
def memberOf (path : Path) (paths : List Path) : Bool := paths.any path.same

/-- Add a path to a set at its end, unless it is there already. -/
def insertInto (paths : List Path) (path : Path) : List Path :=
  if path.memberOf paths then paths else paths ++ [path]

/-- The set of the paths of a list; of several spellings of one path the first is kept. -/
def setOf (paths : List Path) : List Path := paths.foldl insertInto []

/-- The set without a path. -/
def eraseFrom (paths : List Path) (path : Path) : List Path := paths.filter (!path.same ·)

/-- The paths of one set that another does not hold. -/
def without (paths others : List Path) : List Path := paths.filter (!memberOf · others)

example : le ⟨"a/b"⟩ ⟨"a-b"⟩ = true ∧ le ⟨"a-b"⟩ ⟨"a/b"⟩ = false := by decide
example : le ⟨"/z"⟩ ⟨"./a"⟩ = true ∧ le ⟨"a/b"⟩ ⟨"a"⟩ = false := by decide
example : setOf [⟨"/x/"⟩, ⟨"/x"⟩, ⟨"./x"⟩, ⟨"x"⟩] = [⟨"/x/"⟩, ⟨"./x"⟩, ⟨"x"⟩] := by decide

end Path
end BuildWatch
