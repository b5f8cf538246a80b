import BuildWatch.Files.Access

/-!
# Finding the settings file

The file is looked for in a folder, then in the folder above it, and so on to the
top; the nearest one is taken. A name that is an absolute path is looked up alone.
-/

namespace BuildWatch

namespace Path

/-- A path and those above it, at most so many steps up. -/
def upward : Nat → Path → List Path
  | 0, path => [path]
  | left + 1, path =>
    match path.parent? with
    | none => [path]
    | some above => path :: upward left above

/-- A path and all paths above it, the nearest first. Every step up takes one
component away. -/
def ancestors (path : Path) : List Path := upward path.components.length path

end Path

namespace Settings

/-- The path of the nearest file with a name, from a folder upwards. -/
def find? (disk : Files.Disk) (start name : Path) : Option Path :=
  if name.isAbsolute then if disk.has name then some name else none
  else (start.ancestors.map (·.join name)).find? disk.has

end Settings
end BuildWatch
