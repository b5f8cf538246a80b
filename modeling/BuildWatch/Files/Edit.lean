import BuildWatch.Files.Lookup

/-!
# Changing files

Folders on the way to a new entry are made as needed. Writing follows a link at
the end of the path, while links, pipes and removals act on the name itself.
-/

namespace BuildWatch.Files

/-- What is put at a path. -/
inductive Entry where
  | file (content : ByteArray)
  | folder
  | link (target : Bytes)
  | pipe

namespace Disk

/-- The disk with a node at a place, which must lie in a folder. -/
def putAt (disk : Disk) (place : Place) (node : Node) : Disk :=
  { disk with top := disk.top.alter (fun _ => some node) place }

/-- Make the folder at a path, and every folder above it that is missing. A path
that leads to a folder already changes nothing; one that leads through or to
anything else fails. -/
def makeFolders (disk : Disk) (path : Path) : Except Fault Disk :=
  build disk (if path.isAbsolute then [] else disk.current) (stepsOf path.bytes)
where
  /-- Take the steps one at a time, making what is missing. -/
  build (disk : Disk) (place : Place) : List Step → Except Fault Disk
    | [] => .ok disk
    | step :: rest =>
      match walkSteps disk.top true linkLimit place [step, .stay] with
      | .ok next => build disk next rest
      | .error .missing =>
        match step with
        | .into name =>
          match walkSteps disk.top false linkLimit place [step] with
          | .ok _ => .error .exists
          | .error _ => build (disk.putAt (place ++ [name]) (.folder .empty)) (place ++ [name]) rest
        | _ => .error .missing
      | .error fault => .error fault

/-- The place where a new entry of this path goes: the place of the folder above
it and its last name. -/
def slotOf (disk : Disk) (path : Path) : Except Fault Place :=
  match path.fileName?, path.parent? with
  | some name, some parent =>
    match disk.placeOf true (if parent.bytes.isEmpty then ⟨"."⟩ else parent) with
    | .ok place => .ok (place ++ [name])
    | .error fault => .error fault
  | _, _ => .error .exists

/-- Whether a path, by the way it ends, can only name a folder. -/
def namesFolder (path : Path) : Bool :=
  path.bytes.getLast? = some Path.slash || [Path.slash, Path.dot].isSuffixOf path.bytes

/-- The place where something that is no folder goes. -/
def fileSlotOf (disk : Disk) (path : Path) : Except Fault Place :=
  if namesFolder path then .error .missing else disk.slotOf path

/-- Write a file, in the place of the one its path leads to. A link that leads
nowhere makes the file it points to. -/
def writeFile (disk : Disk) (path : Path) (content : ByteArray) : Except Fault Disk :=
  match disk.placeOf true path with
  | .ok place =>
    match disk.top.node? place with
    | some (.folder _) => .error .isFolder
    | some .pipe => .ok disk
    | _ => .ok (disk.putAt place (.file content))
  | .error .missing => throughLinks linkLimit path
  | .error fault => .error fault
where
  /-- Write where a path leads to that has nothing at its end. -/
  throughLinks : Nat → Path → Except Fault Disk
    | 0, _ => .error .tooManyLinks
    | left + 1, path =>
      match disk.fileSlotOf path with
      | .error fault => .error fault
      | .ok slot =>
        match disk.top.node? slot with
        | none => .ok (disk.putAt slot (.file content))
        | some (.link target) => throughLinks left ((Place.path slot.dropLast).join ⟨target⟩)
        | some _ => .error .exists

/-- Put a new entry other than a folder at a path whose name must be free. -/
def putNew (disk : Disk) (path : Path) (node : Node) : Except Fault Disk :=
  match disk.fileSlotOf path with
  | .error fault => .error fault
  | .ok slot =>
    match disk.top.node? slot with
    | none => .ok (disk.putAt slot node)
    | some _ => .error .exists

/-- Put an entry at a path whose folder is there. No link leads to the empty path. -/
def put (disk : Disk) (path : Path) : Entry → Except Fault Disk
  | .folder => disk.makeFolders path
  | .file content => disk.writeFile path content
  | .link target => if target.isEmpty then .error .missing else disk.putNew path (.link target)
  | .pipe => disk.putNew path .pipe

/-- Put an entry at a path, making the folders above it. What cannot be made or put
is left out. -/
def place (disk : Disk) (path : Path) (entry : Entry) : Disk :=
  let above :=
    match path.parent? with
    | some parent => (disk.makeFolders parent).toOption.getD disk
    | none => disk
  (above.put path entry).toOption.getD above

/-- Take away what stands at a path, a folder with everything below it. -/
def remove (disk : Disk) (path : Path) : Except Fault Disk :=
  match disk.placeOf false path with
  | .error fault => .error fault
  | .ok spot => .ok { disk with top := disk.top.alter (fun _ => none) spot }

/-- Move what stands at a path to another path, in the place of what stood there
unless that was a folder with entries or a folder and a file would change places. -/
def rename (disk : Disk) (path target : Path) : Except Fault Disk := do
  let source ← disk.placeOf false path
  let slot ← disk.slotOf target
  match disk.top.node? source with
  | none => .error .missing
  | some node =>
    if source = slot then .ok disk
    else
      let moved := fun (disk : Disk) =>
        { disk with top := disk.top.alter (fun _ => none) source }.putAt slot node
      match node, disk.top.node? slot with
      | _, none => .ok (moved disk)
      | .folder _, some (.folder .empty) => .ok (moved disk)
      | .folder _, some (.folder _) => .error .notEmpty
      | .folder _, some _ => .error .notFolder
      | _, some (.folder _) => .error .isFolder
      | _, some _ => .ok (moved disk)

/-- Make a folder that is there the current one. -/
def enter (disk : Disk) (path : Path) : Except Fault Disk :=
  match disk.placeOf true path with
  | .error fault => .error fault
  | .ok spot =>
    match disk.top.node? spot with
    | some (.folder _) => .ok { disk with current := spot }
    | _ => .error .notFolder

end Disk
end BuildWatch.Files
