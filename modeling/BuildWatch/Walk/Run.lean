import BuildWatch.Walk.Basic

/-!
# Running a walk to its end

Operations are let end in the order in which they were issued, and the walk goes
on after each. Every node below a root is listed and inspected at most once for
that root, so the number of rounds is bounded by the size of the tree.
-/

namespace BuildWatch
namespace Walk

/-- Let the oldest operation end and the walk go on, for at most so many rounds. -/
def rounds (view : View) : Nat → Walk → Noted Walk
  | 0, walk => .quiet walk
  | left + 1, walk =>
    if walk.ended then .quiet walk
    else (advance (complete view walk 0)).andThen (rounds view left)

/-- More rounds than a walk of so many roots takes on a tree of this size. -/
def roundBound (roots size : Nat) : Nat := roots * (2 * size + 1) + 2

/-- Run a walk of a disk to its end. -/
def finish (disk : Files.Disk) (walk : Walk) : Noted Walk :=
  rounds disk.view (roundBound walk.roots.length disk.top.size) walk

/-- All files below some roots of a disk that does not change. -/
def filesBelow (disk : Files.Disk) (roots : List Path) : Noted (List Path) :=
  (finish disk (start roots)).andThen fun walk => .quiet (walk.answer.getD [])

end Walk
end BuildWatch
