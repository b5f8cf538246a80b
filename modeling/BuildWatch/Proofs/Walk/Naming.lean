import BuildWatch.Proofs.Files.Normal
import BuildWatch.Proofs.Path.Relative
import BuildWatch.Proofs.Walk.Sources
import BuildWatch.Worker.Order

/-!
# Files are asked about by the names they were found under

Roots are normalized when a project is loaded. A root that is there then has the path of its
place, and no link stands at that place; a root that is not there keeps an absolute path, and
leads nowhere.

A walk names a file by its root and the names below it, and a link to a file keeps its own
name. A typed path is named otherwise: where something is, all links are followed, also one at
the end. So a regular file below the roots of a project is asked about by the name it was found
and compiled under, and a link is asked about by the name of the file it leads to.

The worker is asked by the text that a path is shown as. That is a spelling of the found name
when the name is a text, as nearly all names are.

There is one more way to miss a file. A typed path that ends in a slash or a single dot means
the file, but asks for a folder, and so leads nowhere. It is then read from the folder of the
project, which need not be the current one.
-/

namespace BuildWatch

namespace Project

open Files (Disk Firm IsNormal)

variable (disk : Disk)

/-- Roots that are read from an absolute path are normal. -/
theorem rootsFrom_normal (here : Firm disk.top disk.current) (folder : Path)
    (absolute : folder.isAbsolute = true) (roots : List Path) :
    ∀ root ∈ rootsFrom disk folder roots, IsNormal disk root := by
  intro root member
  obtain ⟨written, -, rfl⟩ := List.mem_map.mp member
  exact Files.normalize_normal disk here _ (Files.join_isAbsolute folder written absolute)

/-- A project that is found usable is kept as it is. -/
theorem checked_kept (candidate project : Project) (kept : (checked candidate).value = .ok project) :
    project = candidate := by
  rw [checked] at kept
  split at kept
  · simp at kept
  · exact (Except.ok.inj kept).symm

/-- A project that was loaded was assembled from some settings. -/
theorem load_assembled (arguments : Arguments) (project : Project)
    (loaded : (load disk arguments).value = .ok project) :
    ∃ settings path, project = assemble disk arguments settings path := by
  rw [load] at loaded
  split at loaded
  · rename_i path found
    simp only [Noted.andThen] at loaded
    split at loaded
    · simp [Noted.quiet] at loaded
    · rename_i settings read
      exact ⟨settings, path, checked_kept _ project loaded⟩
  · exact ⟨{}, _, checked_kept _ project loaded⟩

/-- The roots of a loaded project and its own root are absolute. -/
theorem load_absolute (arguments : Arguments) (project : Project)
    (loaded : (load disk arguments).value = .ok project) :
    (∀ root ∈ project.roots, root.isAbsolute = true) ∧ project.root.isAbsolute = true := by
  obtain ⟨settings, path, rfl⟩ := load_assembled disk arguments project loaded
  have normalized (folder : Path) (roots : List Path) :
      ∀ root ∈ rootsFrom disk folder roots, root.isAbsolute = true := by
    intro root member
    obtain ⟨written, -, rfl⟩ := List.mem_map.mp member
    exact Files.normalize_absolute disk _
  refine ⟨?_, Files.normalize_absolute disk _⟩
  simp only [roots, assemble, override]
  split <;> exact normalized _ _

/-- The roots of a loaded project are normal. -/
theorem load_normal (here : Firm disk.top disk.current) (arguments : Arguments) (project : Project)
    (loaded : (load disk arguments).value = .ok project) :
    ∀ root ∈ project.roots, IsNormal disk root := by
  obtain ⟨settings, path, rfl⟩ := load_assembled disk arguments project loaded
  simp only [roots, assemble, override]
  split
  · exact rootsFrom_normal disk here _ (Files.normalize_absolute disk _) settings.watch.roots
  · exact rootsFrom_normal disk here _ (Files.path_absolute disk.current).1 arguments.roots

end Project
namespace Walk

open Files (Disk Folder Node Place IsNormal Names)

variable (disk : Disk) (trouble : Trouble)

/-- A file that was found is an entry of a folder, and leads to a regular file. -/
theorem Found.entry (wellFormed : disk.top.WellFormed) (root file : Path)
    (found : Found disk trouble root file) :
    (∃ folder entries name node, Entered disk trouble root folder entries ∧
      entries.get? name = some node ∧ file = folder.child name) ∧
      ∃ content, disk.nodeOf true file = .ok (.file content) := by
  cases found with
  | file content seen inspected =>
    have leads := Files.nodeOf_follow disk file _
      (seen.leads disk trouble wellFormed root file _) (by simp)
    obtain ⟨folder, entries, name, _, above, holds, -⟩ := seen
    exact ⟨⟨folder, entries, name, _, above, holds, rfl⟩, content, leads⟩
  | link target content seen inspected leads =>
    obtain ⟨folder, entries, name, _, above, holds, -⟩ := seen
    exact ⟨⟨folder, entries, name, _, above, holds, rfl⟩, content, leads⟩

/-- Below a normal root every entered folder has the path of its place. -/
theorem Entered.place (wellFormed : disk.top.WellFormed) (root folder : Path) (entries : Folder)
    (entered : Entered disk trouble root folder entries) (normal : IsNormal disk root) :
    ∃ place, folder = Place.path place ∧ disk.top.node? place = some (.folder entries) := by
  induction entered with
  | top entries leads listed =>
    obtain ⟨spot, lead, stands⟩ := Files.nodeOf_ok disk true root _ leads
    rcases normal with ⟨place, rfl, node, there, plain⟩ | ⟨fault, fails⟩
    · rw [(Files.placeOf_path disk wellFormed place node there).2 plain] at lead
      exact ⟨place, rfl, Except.ok.inj lead ▸ stands⟩
    · simp [fails] at lead
  | within folder entries inner name above holds visible inspected listed inductionHypothesis =>
    obtain ⟨place, rfl, stands⟩ := inductionHypothesis
    obtain ⟨path, below⟩ := Files.path_entry disk.top place entries name _ wellFormed stands holds
    exact ⟨place ++ [name], path.symm, below⟩

/-- Below a normal root every file has the path of its place. -/
theorem Found.place (wellFormed : disk.top.WellFormed) (root file : Path)
    (found : Found disk trouble root file) (normal : IsNormal disk root) :
    ∃ place node, file = Place.path place ∧ disk.top.node? place = some node := by
  obtain ⟨⟨folder, entries, name, node, entered, holds, rfl⟩, -⟩ :=
    found.entry disk trouble wellFormed root file
  obtain ⟨place, rfl, stands⟩ := entered.place disk trouble wellFormed root folder entries normal
  obtain ⟨path, below⟩ := Files.path_entry disk.top place entries name node wellFormed stands holds
  exact ⟨place ++ [name], node, path.symm, below⟩

/-- A file that was found does not end in a step that stays. -/
theorem Found.ends (wellFormed : disk.top.WellFormed)
    (root file : Path) (found : Found disk trouble root file) :
    (Files.stepsOf file.bytes).getLast? ≠ some .stay := by
  obtain ⟨⟨folder, entries, name, node, entered, holds, rfl⟩, -⟩ :=
    found.entry disk trouble wellFormed root file
  obtain ⟨valid, written⟩ := entered.named disk trouble wellFormed root folder entries name node holds
  rw [Files.child_ends folder name valid written]
  simp

/-- **A file is asked about under the name it was found under, unless that is a link.** Let a
walk of the roots of a loaded project find a file, and let a relative path mean the file, read
from the current folder. The files may have changed since the project was loaded.

Where the typed path leads to anything, the question is about the found name exactly when that
is normal. If the files are as they were when the project was loaded, that is when a regular
file stands there, and not a link to one. Where the typed path leads nowhere, the question is
about the found name exactly when the project is in the current folder. What the worker is sent is then
a spelling of the found name exactly when that is a text.

Proof: the found name and the typed path are two spellings of one path, and both end in a name or
the typed one asks for a folder in vain. A root was normal when it was loaded, so the names
below it are those of places, and a place is its own normal path unless a link stands there. -/
theorem asked_under_found_name_iff (earlier : Disk) (wellFormed : disk.top.WellFormed)
    (entries : Folder) (here : disk.top.node? disk.current = some (.folder entries))
    (arguments : Arguments) (project : Project)
    (loaded : (Project.load earlier arguments).value = .ok project)
    (happenings : List Happening)
    (sees : ∀ happening ∈ happenings, happening.Sees (disk.viewWith trouble)) (files : List Path)
    (answers : (run project.roots happenings).answer = some files) (file : Path)
    (member : file ∈ files) (location : Location) (relative : location.path.isAbsolute = false)
    (means : (disk.currentPath.join location.path).same file = true) :
    ∃ source line column, source = disk.sourceOf project.root location.path ∧
      Order.about disk project.root location = .tooltip source.text line column ∧
      (source.same file = true ↔
        if disk.has location.path then (disk.normalize file).same file = true
        else project.root.same disk.currentPath = true) ∧
      (source.same file = true →
        (Path.same ⟨source.text⟩ file = true ↔ Text.IsText file.bytes)) ∧
      (earlier = disk → ((disk.normalize file).same file = true ↔
        ∃ content, disk.nodeOf false file = .ok (.file content))) := by
  have all := answer_perm disk trouble wellFormed project.roots happenings sees files answers
  obtain ⟨root, listed, found⟩ :=
    (mem_filesOf disk trouble wellFormed project.roots file).mp (all.mem_iff.mp member)
  obtain ⟨-, content, leads⟩ := found.entry disk trouble wellFormed root file
  have names : Names disk location.path file :=
    ⟨⟨entries, here⟩, relative, means, ⟨content, leads⟩, found.ends disk trouble wellFormed root file⟩
  have absolute := (Project.load_absolute earlier arguments project loaded).2
  refine ⟨_, _, _, rfl, rfl, ?_, fun same => ⟨fun sent => ?_, fun text => ?_⟩, ?_⟩
  · exact Files.sourceOf_same_iff disk wellFormed project.root location.path file absolute names
  · exact (Path.isText_same _ _ sent).mp ⟨_, rfl⟩
  · rwa [Path.mk_text _ ((Path.isText_same _ _ same).mpr text)]
  · rintro rfl
    have normal := Project.load_normal earlier ⟨_, here, by simp⟩ arguments project loaded root listed
    obtain ⟨place, node, rfl, stands⟩ := found.place earlier trouble wellFormed root file normal
    exact Files.normalize_path_iff earlier wellFormed place node stands content leads

/-- A disk with a regular file and a link to it. -/
def linkedDisk : Disk where
  top := .entry "real" (.file ByteArray.empty) (.entry "link" (.link "real") .empty)
  current := []

/-- Arguments that name the top folder as the only root, and a worker. -/
def linkedArguments : Arguments := { job := .check, worker := some "worker", roots := [⟨"/"⟩] }

theorem linkedDisk_wellFormed : linkedDisk.top.WellFormed := by decide

/-- Where paths of the disk lead. -/
theorem linkedDisk_placeOf :
    linkedDisk.placeOf true ⟨"/"⟩ = .ok [] ∧
      linkedDisk.placeOf true ⟨"/kiln.toml"⟩ = .error .missing ∧
      (∀ follow, linkedDisk.placeOf follow ⟨"/real"⟩ = .ok ["real"]) ∧
      linkedDisk.placeOf true ⟨"real"⟩ = .ok ["real"] ∧
      linkedDisk.placeOf false ⟨"/link"⟩ = .ok ["link"] ∧
      linkedDisk.placeOf true ⟨"/link"⟩ = .ok ["real"] ∧
      linkedDisk.placeOf true ⟨"link"⟩ = .ok ["real"] := by
  have real : Files.stepsOf "real" = [.into "real"] := by decide
  simp only [Disk.placeOf, real, show Files.stepsOf "/" = [.stay] by decide,
    show Files.stepsOf "/real" = [.into "real"] by decide,
    show Files.stepsOf "link" = [.into "link"] by decide,
    show Files.stepsOf "/link" = [.into "link"] by decide,
    show Files.stepsOf "/kiln.toml" = [.into "kiln.toml"] by decide]
  simp +decide [Files.walkSteps, Folder.node?, Folder.get?, linkedDisk, real, Files.linkLimit]

/-- The arguments make a usable project of the disk. -/
theorem linkedDisk_load :
    ∃ project, (Project.load linkedDisk linkedArguments).value = .ok project ∧
      project.roots = [⟨"/"⟩] := by
  have missing : linkedDisk.has ⟨"/kiln.toml"⟩ = false := by
    rw [Disk.has, Disk.nodeOf, linkedDisk_placeOf.2.1]
    rfl
  have unfound : Settings.find? linkedDisk linkedDisk.currentPath linkedArguments.config = none := by
    have places : linkedDisk.currentPath.ancestors.map (·.join linkedArguments.config) =
        [⟨"/kiln.toml"⟩] := by decide
    rw [Settings.find?, if_neg (by decide), places]
    simp [missing]
  refine ⟨Project.assemble linkedDisk linkedArguments {} ⟨"/kiln.toml"⟩, ?_, ?_⟩
  · rw [Project.load, unfound]
    rfl
  · have top : linkedDisk.currentPath.join ⟨"/"⟩ = ⟨"/"⟩ := by decide
    have normal : linkedDisk.normalize ⟨"/"⟩ = ⟨"/"⟩ :=
      Files.normalize_ok linkedDisk ⟨"/"⟩ [] linkedDisk_placeOf.1
    simp [Project.roots, Project.assemble, Project.override, Project.rootsFrom, linkedArguments, top,
      normal]

/-- A walk of the disk from its top folder, the oldest operation first. -/
def linkedWalk : List Happening :=
  (List.replicate 3 [.ends linkedDisk.view 0, .goesOn]).flatten ++ [.goesOn]

/-- The walk finds the file and the link. -/
theorem linkedWalk_answer : (run [⟨"/"⟩] linkedWalk).answer = some [⟨"/real"⟩, ⟨"/link"⟩] := by
  obtain ⟨root, -, real, -, link, follows, -⟩ := linkedDisk_placeOf
  have listing : linkedDisk.view.list ⟨"/"⟩ = .ok [⟨"/real"⟩, ⟨"/link"⟩] := by
    simp only [Disk.view, Disk.list, Disk.nodeOf, root]
    rfl
  have file : linkedDisk.view.kindOf ⟨"/real"⟩ = .ok .file := by
    simp only [Disk.view, Disk.kindOf, Disk.nodeOf, real]
    rfl
  have linked : linkedDisk.view.kindOf ⟨"/link"⟩ = .ok .file := by
    simp only [Disk.view, Disk.kindOf, Disk.nodeOf, link, follows]
    rfl
  have visible : [⟨"/real"⟩, ⟨"/link"⟩].filter (!Path.isHidden ·) = [⟨"/real"⟩, ⟨"/link"⟩] := by
    decide
  simp [run, linkedWalk, List.replicate, happen, start, complete, advance, Operation.perform, listing,
    file, linked, takeIn, issue, visible, Noted.quiet]

theorem linkedWalk_sees : ∀ happening ∈ linkedWalk, happening.Sees (linkedDisk.viewWith noTrouble) := by
  simp [linkedWalk, List.replicate, Happening.Sees, Disk.viewWith, noTrouble, Disk.view]

/-- The file of the disk is asked about by the name it was found under. -/
theorem regular_file_asked_by_name :
    ∃ project, (Project.load linkedDisk linkedArguments).value = .ok project ∧
      (run project.roots linkedWalk).answer = some [⟨"/real"⟩, ⟨"/link"⟩] ∧
      ∃ asked line column,
        Order.about linkedDisk project.root ⟨⟨"real"⟩, 1, 1⟩ = .tooltip asked line column ∧
        Path.same ⟨asked⟩ ⟨"/real"⟩ = true := by
  obtain ⟨project, loaded, roots⟩ := linkedDisk_load
  obtain ⟨-, -, stands, typed, -⟩ := linkedDisk_placeOf
  have answers : (run project.roots linkedWalk).answer = some [⟨"/real"⟩, ⟨"/link"⟩] := by
    rw [roots, linkedWalk_answer]
  obtain ⟨source, line, column, -, asks, same, sent, regular⟩ :=
    asked_under_found_name_iff linkedDisk noTrouble linkedDisk linkedDisk_wellFormed linkedDisk.top rfl
      linkedArguments project loaded linkedWalk linkedWalk_sees _ answers ⟨"/real"⟩ (by simp)
      ⟨⟨"real"⟩, 1, 1⟩ (by decide) (by decide)
  have there : linkedDisk.has ⟨"real"⟩ = true := by
    rw [Disk.has, Disk.nodeOf, typed]
    rfl
  have file : linkedDisk.nodeOf false ⟨"/real"⟩ = .ok (.file ByteArray.empty) := by
    rw [Disk.nodeOf, stands]
    rfl
  have own : source.same ⟨"/real"⟩ = true := by
    rw [same, if_pos there]
    exact (regular rfl).mpr ⟨_, file⟩
  exact ⟨project, loaded, answers, _, line, column, asks, (sent own).mpr ⟨"/real", rfl⟩⟩

/-- The link of the disk is found under its own name, and asked about by that of the file. -/
theorem linked_file_asked_by_target :
    ∃ project, (Project.load linkedDisk linkedArguments).value = .ok project ∧
      (run project.roots linkedWalk).answer = some [⟨"/real"⟩, ⟨"/link"⟩] ∧
      (linkedDisk.currentPath.join ⟨"link"⟩).same ⟨"/link"⟩ = true ∧
      Order.about linkedDisk project.root ⟨⟨"link"⟩, 1, 1⟩ = .tooltip "/real" 0 0 ∧
      Path.same ⟨"/real"⟩ ⟨"/link"⟩ = false := by
  obtain ⟨project, loaded, roots⟩ := linkedDisk_load
  obtain ⟨-, -, -, -, -, -, typed⟩ := linkedDisk_placeOf
  have there : linkedDisk.has ⟨"link"⟩ = true := by
    rw [Disk.has, Disk.nodeOf, typed]
    rfl
  have source : linkedDisk.sourceOf project.root ⟨"link"⟩ = ⟨"/real"⟩ := by
    rw [Disk.sourceOf, if_neg (by decide), if_pos there, Files.normalize_ok linkedDisk _ _ typed]
    decide
  refine ⟨project, loaded, by rw [roots, linkedWalk_answer], by decide, ?_, by decide⟩
  rw [Order.about, source, Path.text, Text.shown_bytes]
  rfl

end Walk
end BuildWatch
