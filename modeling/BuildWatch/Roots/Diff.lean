import BuildWatch.Path.Order

/-!
# Differences between root sets
-/

namespace BuildWatch

/-- What a new set of roots adds to an old one and what it drops, both in order. -/
structure RootsDiff where
  added : List Path
  removed : List Path
  deriving DecidableEq, Repr

namespace RootsDiff

/-- The difference between two sets. -/
def between (old new : List Path) : RootsDiff :=
  ⟨Path.sort (Path.without new old), Path.sort (Path.without old new)⟩

/-- Whether the two sets were the same. -/
def isEmpty (diff : RootsDiff) : Bool := diff.added.isEmpty && diff.removed.isEmpty

end RootsDiff
end BuildWatch
