import BuildWatch.Files.Access
import BuildWatch.Location

/-!
# What the worker is asked to do
-/

namespace BuildWatch

/-- What is wanted of the worker. A question names its file by a text, as its request
does. Lines and columns count from zero. -/
inductive Order where
  | compile (files : List Path)
  | tooltip (source : String) (line column : UInt32)
  deriving DecidableEq, Repr

/-- The question about a typed location. The file is named as a walk names it, so
that the worker knows it by the name it was compiled under. -/
def Order.about (disk : Files.Disk) (root : Path) (location : Location) : Order :=
  let (line, column) := location.zeroBased
  .tooltip (disk.sourceOf root location.path).text line column

end BuildWatch
