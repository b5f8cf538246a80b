import BuildWatch.Path.Basic

/-!
# Which files are compiled

Files are selected by extension. Without any listed extension every file is
selected. An extension with broken characters is never listed.
-/

namespace BuildWatch

/-- Whether a file is selected by a list of extensions. -/
def selects (extensions : List String) (path : Path) : Bool :=
  extensions.isEmpty ||
    match path.extension?.bind Text.ofBytes? with
    | some extension => extensions.contains extension
    | none => false

end BuildWatch
