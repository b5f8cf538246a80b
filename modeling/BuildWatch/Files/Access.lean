import BuildWatch.Files.Lookup

/-!
# Reading, listing and naming files

What the rest of the library asks of a disk. Folders are listed by the path they
were asked for, so every entry is that path and one name. The kind of an entry
follows links to regular files only: a link to a folder may point back above
itself, and is neither.

A path is normalized to the one name of the file it leads to, without links and
dots. A path that leads nowhere is kept as it is, read from the current folder
when it is relative.
-/

namespace BuildWatch.Files

/-- What a walk sees in an entry. -/
inductive Kind where
  | file
  | folder
  | other
  deriving DecidableEq, Repr

namespace Disk

/-- The path of the current folder. -/
def currentPath (disk : Disk) : Path := disk.current.path

/-- The name of the file that a path leads to, without links and dots. -/
def canonical? (disk : Disk) (path : Path) : Except Fault Path :=
  (disk.placeOf true path).map Place.path

/-- The bytes of a file. A pipe that nobody writes to holds none. -/
def readBytes (disk : Disk) (path : Path) : Except Fault ByteArray :=
  match disk.nodeOf true path with
  | .error fault => .error fault
  | .ok (.file content) => .ok content
  | .ok (.folder _) => .error .isFolder
  | .ok _ => .ok ByteArray.empty

/-- The text of a file. -/
def readText (disk : Disk) (path : Path) : Except Fault String :=
  match disk.readBytes path with
  | .error fault => .error fault
  | .ok content =>
    match String.fromUTF8? content with
    | some text => .ok text
    | none => .error .notText

/-- The entries of a folder, each under the path that was asked for. -/
def list (disk : Disk) (path : Path) : Except Fault (List Path) :=
  match disk.nodeOf true path with
  | .error fault => .error fault
  | .ok (.folder entries) => .ok (entries.names.map path.child)
  | .ok _ => .error .notFolder

/-- The kind of an entry; of a link, `file` when it leads to a regular file. -/
def kindOf (disk : Disk) (path : Path) : Except Fault Kind :=
  match disk.nodeOf false path with
  | .error fault => .error fault
  | .ok (.file _) => .ok .file
  | .ok (.folder _) => .ok .folder
  | .ok .pipe => .ok .other
  | .ok (.link _) =>
    match disk.nodeOf true path with
    | .error fault => .error fault
    | .ok (.file _) => .ok .file
    | .ok _ => .ok .other

/-- The one name of what a path leads to, and of a path that leads nowhere its own
bytes read from the current folder. -/
def normalize (disk : Disk) (path : Path) : Path :=
  match disk.canonical? path with
  | .ok name => name
  | .error _ => if path.isAbsolute then path else disk.currentPath.join path

/-- The file that a typed path means. An absolute path is taken as it is; a
relative one is read from the current folder, or from the root when nothing is
there. -/
def sourceOf (disk : Disk) (root path : Path) : Path :=
  if path.isAbsolute then path
  else if disk.has path then disk.normalize path
  else disk.normalize (root.join path)

end Disk
end BuildWatch.Files
