import BuildWatch.Files.Fault
import BuildWatch.Files.Tree
import BuildWatch.Path.Basic

/-!
# Looking paths up

A lookup walks the steps of a path from the top of the tree or from the current
folder. A name that stands for a link is replaced by the steps of its target,
except at the end of the path when the link itself is asked for. A slash at the
end asks for a folder, like a single dot. At most forty links are followed, so
a lookup ends also where links form a ring: each step taken shortens the steps
ahead, and each link followed uses up one of the forty.
-/

namespace BuildWatch.Files

/-- One step of a lookup. -/
inductive Step where
  | stay
  | up
  | into (name : Bytes)
  deriving DecidableEq, Repr

/-- The step that a piece between slashes asks for; an empty one asks for none. -/
def stepOf? (piece : Bytes) : Option Step :=
  if piece = [] then none
  else if piece = [Path.dot] then some .stay
  else if piece = [Path.dot, Path.dot] then some .up
  else some (.into piece)

/-- The steps of a path, all pieces but the empty ones; a slash at the end is one more step. -/
def stepsOf (path : Bytes) : List Step :=
  let steps := ((Path.piecesFrom 0 [] path).map Prod.snd).filterMap stepOf?
  if path.getLast? = some Path.slash then steps ++ [.stay] else steps

/-- How many links one lookup follows. -/
def linkLimit : Nat := 40

/-- The longest name of a file, in bytes. -/
def nameLimit : Nat := 255

/-- Walk steps from a place. The place is reached through folders only, so a
double dot leads to the folder that holds it. With `last` set, a link at the end
is followed too. -/
def walkSteps (top : Folder) (last : Bool) (links : Nat) (place : Place) (steps : List Step) :
    Except Fault Place :=
  match steps with
  | [] => .ok place
  | step :: rest =>
    match top.node? place with
    | none => .error .missing
    | some (.folder folder) =>
      match step with
      | .stay => walkSteps top last links place rest
      | .up => walkSteps top last links place.dropLast rest
      | .into name =>
        if nameLimit < name.length then .error .nameTooLong
        else
          match folder.get? name with
          | none => .error .missing
          | some (.link target) =>
            if rest.isEmpty && !last then .ok (place ++ [name])
            else if target.isEmpty then .error .missing
            else
              match links with
              | 0 => .error .tooManyLinks
              | left + 1 =>
                walkSteps top last left (if Path.isRooted target then [] else place)
                  (stepsOf target ++ rest)
          | some _ => walkSteps top last links (place ++ [name]) rest
    | some _ => .error .notFolder
termination_by (links, steps.length)

/-- The path that names a place, without links and dots. -/
def Place.path (place : Place) : Path := ⟨Path.slash :: [Path.slash].intercalate place⟩

namespace Disk

/-- The place a path leads to, following a link at its end only on request. -/
def placeOf (disk : Disk) (last : Bool) (path : Path) : Except Fault Place :=
  if path.bytes.isEmpty then .error .missing
  else if path.bytes.contains 0 then .error .zeroByte
  else
    walkSteps disk.top last linkLimit (if path.isAbsolute then [] else disk.current)
      (stepsOf path.bytes)

/-- What a path stands for, following a link at its end only on request. -/
def nodeOf (disk : Disk) (last : Bool) (path : Path) : Except Fault Node :=
  match disk.placeOf last path with
  | .error fault => .error fault
  | .ok place =>
    match disk.top.node? place with
    | some node => .ok node
    | none => .error .missing

/-- Whether a path leads to anything. -/
def has (disk : Disk) (path : Path) : Bool := (disk.nodeOf true path).isOk

end Disk
end BuildWatch.Files
