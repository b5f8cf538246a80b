import BuildWatch.Path.Order

/-!
# Hidden names

A name that starts with a dot is hidden, if it is that of a text. A name with broken
characters is never hidden. A walk does not look at hidden entries, and a change
below a root is hidden when some name between the root and the changed file is.
Only names below a root count: the path of a root may hold hidden names of its own.
-/

namespace BuildWatch

/-- Whether a name is a text that starts with a dot. -/
def isHiddenName (name : Bytes) : Bool :=
  match Text.ofBytes? name with
  | some text => text.toList.head? == some '.'
  | none => false

namespace Component

/-- Whether a component is written with a dot in front; single and double dots are. -/
def isHidden : Component → Bool
  | .root => false
  | .here => true
  | .up => true
  | .name bytes => isHiddenName bytes

end Component

namespace Path

/-- Whether the last name of a path is hidden. A path without a last name is not. -/
def isHidden (path : Path) : Bool :=
  match path.fileName? with
  | some name => isHiddenName name
  | none => false

/-- Whether a path lies below one of the roots and has a hidden component between
the first such root and itself. -/
def isHiddenUnder (roots : List Path) (path : Path) : Bool :=
  match roots.find? (·.isPrefixOf path) with
  | none => false
  | some root => (path.components.drop root.components.length).any Component.isHidden

end Path
end BuildWatch
