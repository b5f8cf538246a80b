import BuildWatch.Project
import BuildWatch.Walk.Run

/-!
# The files of a project

A project that is compiled once is walked once, and the selected files are put in
order, because a walk finds them in no particular one.
-/

namespace BuildWatch

/-- The files that a project compiles, in order. -/
def Project.sources (disk : Files.Disk) (project : Project) : Noted (List Path) :=
  (Walk.filesBelow disk project.roots).andThen fun files =>
    .quiet (Path.sort (files.filter project.selects))

end BuildWatch
