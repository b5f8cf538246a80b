import BuildWatch.Proofs.Files.Places

/-!
# Normal paths and typed ones

A path is normalized to the path of the place it leads to. A typed path is normalized where it
leads to anything, so it is taken for the place where the file stands, links followed. It may
lead nowhere and still mean a file: with a slash or a single dot at its end it asks for a folder.
Then it is read from another folder, and means the file only if that is the current one.
-/

namespace BuildWatch

namespace Files

variable (disk : Disk)

theorem absolute_written (path : Path) (absolute : path.isAbsolute = true) :
    path.bytes.isEmpty = false := by
  rw [Bool.eq_false_iff, ne_eq, List.isEmpty_iff]
  intro empty
  simp [Path.isAbsolute, empty, Path.isRooted] at absolute

/-- A path that is read from an absolute one is absolute. -/
theorem join_isAbsolute (base path : Path) (absolute : base.isAbsolute = true) :
    (base.join path).isAbsolute = true := by
  cases relative : path.isAbsolute with
  | true => rw [Path.join, if_pos relative, relative]
  | false => rw [join_absolute base path relative (absolute_written base absolute), absolute]

/-- A path that nothing is to be made of any more: it names a place with something other than a
link, or it leads nowhere. -/
def IsNormal (path : Path) : Prop :=
  (∃ place, path = place.path ∧ Firm disk.top place) ∨ ∃ fault, disk.placeOf true path = .error fault

/-- A path that leads to a place is normalized to the path of that. -/
theorem normalize_ok (path : Path) (place : Place) (leads : disk.placeOf true path = .ok place) :
    disk.normalize path = place.path := by
  rw [Disk.normalize, Disk.canonical?, leads]
  rfl

/-- A path is normalized to the path of its place when it leads anywhere. -/
theorem normalize_eq (path : Path) :
    (∃ place, disk.placeOf true path = .ok place ∧ disk.normalize path = place.path) ∨
      ∃ fault, disk.placeOf true path = .error fault ∧
        disk.normalize path = if path.isAbsolute then path else disk.currentPath.join path := by
  cases leads : disk.placeOf true path with
  | ok place => exact Or.inl ⟨place, rfl, normalize_ok disk path place leads⟩
  | error fault =>
    refine Or.inr ⟨fault, rfl, ?_⟩
    rw [Disk.normalize, Disk.canonical?, leads]
    rfl

theorem normalize_absolute (path : Path) : (disk.normalize path).isAbsolute = true := by
  rcases normalize_eq disk path with ⟨place, -, named⟩ | ⟨fault, -, kept⟩
  · rw [named, (path_absolute place).1]
  · rw [kept]
    split
    · assumption
    · exact join_isAbsolute _ path (path_absolute disk.current).1

/-- An absolute path is normal once it is normalized. -/
theorem normalize_normal (here : Firm disk.top disk.current) (path : Path)
    (absolute : path.isAbsolute = true) : IsNormal disk (disk.normalize path) := by
  rcases normalize_eq disk path with ⟨place, leads, named⟩ | ⟨fault, leads, kept⟩
  · exact Or.inl ⟨place, named, placeOf_firm disk path place here leads⟩
  · rw [kept, if_pos absolute]
    exact Or.inr ⟨fault, leads⟩

/-- A path that leads to a regular file is normal exactly when the file stands there itself. -/
theorem normalize_path_iff (wellFormed : disk.top.WellFormed) (place : Place) (node : Node)
    (stands : disk.top.node? place = some node) (content : ByteArray)
    (leads : disk.nodeOf true place.path = .ok (.file content)) :
    (disk.normalize place.path).same place.path = true ↔
      ∃ content, disk.nodeOf false place.path = .ok (.file content) := by
  obtain ⟨direct, followed⟩ := placeOf_path disk wellFormed place node stands
  obtain ⟨final, lead, last⟩ := nodeOf_ok disk true place.path _ leads
  rw [nodeOf_eq disk false _ place node direct stands, normalize_ok disk _ final lead]
  constructor
  · intro same
    obtain rfl := path_injective final place (node?_names disk.top final _ wellFormed last)
      (node?_names disk.top place node wellFormed stands) same
    exact ⟨content, congrArg Except.ok (Option.some.inj (stands.symm.trans last))⟩
  · rintro ⟨other, same⟩
    obtain rfl := Except.ok.inj same
    rw [followed (by simp)] at lead
    rw [Except.ok.inj lead, Path.same, beq_self_eq_true]

/-- A path that ends in a step that stays leads to a folder, if anywhere. -/
theorem stay_folder (path : Path) (place : Place) (leads : disk.placeOf true path = .ok place)
    (stays : (stepsOf path.bytes).getLast? = some .stay) :
    ∃ entries, disk.top.node? place = some (.folder entries) := by
  obtain ⟨before, steps⟩ := List.getLast?_eq_some_iff.mp stays
  obtain ⟨-, -, walked⟩ := placeOf_ok disk true path place leads
  rw [steps] at walked
  exact walkSteps_folder disk.top linkLimit _ place before walked

/-- A spelling of a regular file's path does not lead to a folder. -/
theorem not_folder (path file : Path) (same : path.same file = true) (content : ByteArray)
    (leads : disk.nodeOf true file = .ok (.file content)) (place : Place)
    (lead : disk.placeOf true path = .ok place) (entries : Folder) :
    disk.top.node? place ≠ some (.folder entries) := by
  intro stands
  have folder := nodeOf_folder_same disk path file same entries
    (nodeOf_eq disk true path place _ lead stands)
  simp [leads] at folder

/-- A spelling of a regular file's path that ends in a step that stays leads nowhere. -/
theorem stay_fails (path file : Path) (same : path.same file = true) (content : ByteArray)
    (leads : disk.nodeOf true file = .ok (.file content))
    (stays : (stepsOf path.bytes).getLast? = some .stay) :
    ∃ fault, disk.placeOf true path = .error fault := by
  cases lead : disk.placeOf true path with
  | error fault => exact ⟨fault, rfl⟩
  | ok place =>
    obtain ⟨entries, stands⟩ := stay_folder disk path place lead stays
    exact absurd stands (not_folder disk path file same content leads place lead entries)

/-- A relative path names a file: read from the current folder, which is there, it means the
path of a regular file or of a link to one. That path does not end in a step that stays. -/
structure Names (path file : Path) : Prop where
  here : ∃ entries, disk.top.node? disk.current = some (.folder entries)
  relative : path.isAbsolute = false
  means : (disk.currentPath.join path).same file = true
  leads : ∃ content, disk.nodeOf true file = .ok (.file content)
  ends : (stepsOf file.bytes).getLast? ≠ some .stay

/-- The current folder is no file, so a path that names a file takes a step that does not stay. -/
theorem Names.moves (wellFormed : disk.top.WellFormed) (path file : Path)
    (names : Names disk path file) : moves (stepsOf path.bytes) ≠ [] := by
  intro none
  obtain ⟨entries, stands⟩ := names.here
  obtain ⟨content, leads⟩ := names.leads
  have joined := Path.components_join disk.currentPath path names.relative (path_absolute _).2
  rw [none, List.map_nil, List.append_nil] at joined
  have same : disk.currentPath.same file = true := by
    have means := names.means
    rw [Path.same, beq_iff_eq] at means ⊢
    rw [← joined, means]
  have current := (placeOf_path disk wellFormed disk.current _ stands).2 (by simp)
  exact not_folder disk _ file same content leads _ current entries stands

theorem Names.written (wellFormed : disk.top.WellFormed) (path file : Path)
    (names : Names disk path file) : path.bytes.isEmpty = false := by
  rw [Bool.eq_false_iff, ne_eq, List.isEmpty_iff]
  intro empty
  exact names.moves disk wellFormed path file (by rw [empty]; decide)

/-- A path that names a file ends as it does alone, from wherever it is read. -/
theorem Names.last (wellFormed : disk.top.WellFormed) (path file : Path)
    (names : Names disk path file) (base : Path) (there : base.bytes.isEmpty = false) :
    (stepsOf (base.join path).bytes).getLast? = (stepsOf path.bytes).getLast? := by
  have written := names.written disk wellFormed path file
  have steps : stepsOf path.bytes ≠ [] := fun none =>
    names.moves disk wellFormed path file (by rw [none]; rfl)
  rw [stepsOf_join base path names.relative there written, List.getLast?_append_of_ne_nil _ steps]

/-- A path that names a file and does not end in a step that stays is found as the file is. -/
theorem Names.placeOf (wellFormed : disk.top.WellFormed) (path file : Path)
    (names : Names disk path file) (goes : (stepsOf path.bytes).getLast? ≠ some .stay) (follow : Bool) :
    disk.placeOf follow path = disk.placeOf follow file := by
  obtain ⟨entries, stands⟩ := names.here
  have last := names.last disk wellFormed path file disk.currentPath (path_absolute _).2
  rw [← placeOf_current disk wellFormed follow path entries stands names.relative
    (names.written disk wellFormed path file)]
  refine placeOf_same disk follow _ file names.means ?_
  rw [last]
  exact iff_of_false goes names.ends

/-- A path that names a file and ends in a step that stays leads nowhere. -/
theorem Names.fails (wellFormed : disk.top.WellFormed) (path file : Path)
    (names : Names disk path file) (stays : (stepsOf path.bytes).getLast? = some .stay) :
    ∃ fault, disk.placeOf true path = .error fault := by
  obtain ⟨entries, stands⟩ := names.here
  obtain ⟨content, leads⟩ := names.leads
  have last := names.last disk wellFormed path file disk.currentPath (path_absolute _).2
  rw [← placeOf_current disk wellFormed true path entries stands names.relative
    (names.written disk wellFormed path file)]
  exact stay_fails disk _ file names.means content leads (last.trans stays)

/-- A path that names a file leads to something exactly when it does not end in a step that
stays. -/
theorem Names.has_iff (wellFormed : disk.top.WellFormed) (path file : Path)
    (names : Names disk path file) :
    disk.has path = true ↔ (stepsOf path.bytes).getLast? ≠ some .stay := by
  constructor
  · intro there stays
    obtain ⟨fault, fails⟩ := names.fails disk wellFormed path file stays
    simp [Disk.has, Disk.nodeOf, fails, Except.isOk, Except.toBool] at there
  · intro goes
    obtain ⟨content, leads⟩ := names.leads
    have same : disk.nodeOf true path = disk.nodeOf true file := by
      rw [Disk.nodeOf, Disk.nodeOf, names.placeOf disk wellFormed path file goes]
    rw [Disk.has, same, leads]
    rfl

/-- Read from another folder, a path that leads nowhere means the file it names exactly when
that folder is the current one. -/
theorem Names.elsewhere (wellFormed : disk.top.WellFormed) (path file : Path)
    (names : Names disk path file) (root : Path) (absolute : root.isAbsolute = true)
    (stays : (stepsOf path.bytes).getLast? = some .stay) :
    (disk.normalize (root.join path)).same file = true ↔ root.same disk.currentPath = true := by
  obtain ⟨content, leads⟩ := names.leads
  have base := absolute_written root absolute
  have here := Path.components_join disk.currentPath path names.relative (path_absolute _).2
  have there := Path.components_join root path names.relative base
  have means : (root.join path).same file = true ↔ root.same disk.currentPath = true := by
    have means := names.means
    rw [Path.same, beq_iff_eq] at means
    rw [Path.same, Path.same, beq_iff_eq, beq_iff_eq, ← means, there, here, List.append_left_inj]
  have last := (names.last disk wellFormed path file root base).trans stays
  rcases normalize_eq disk (root.join path) with ⟨place, lead, normal⟩ | ⟨fault, fails, kept⟩
  · -- A folder stands there, and it is not the file.
    rw [normal, ← means]
    have apart : ¬ (root.join path).same file = true := by
      intro same
      obtain ⟨fault, fails⟩ := stay_fails disk _ file same content leads last
      simp [lead] at fails
    refine iff_of_false (fun same => ?_) apart
    obtain ⟨entries, stands⟩ := stay_folder disk _ place lead last
    have direct := (placeOf_path disk wellFormed place _ stands).2 (by simp)
    exact not_folder disk _ file same content leads place direct entries stands
  · rw [kept, if_pos (join_isAbsolute root path absolute), means]

/-- **Which file a relative path is taken for.** Let a path name a file. Where it leads to
anything, it is taken for the normal path of the file, so it is the file under its own name
exactly when that is normal. Where it leads nowhere, it is the file exactly when the folder it
is then read from is the current one. -/
theorem sourceOf_same_iff (wellFormed : disk.top.WellFormed) (root path file : Path)
    (absolute : root.isAbsolute = true) (names : Names disk path file) :
    (disk.sourceOf root path).same file = true ↔
      if disk.has path then (disk.normalize file).same file = true
      else root.same disk.currentPath = true := by
  have found := names.has_iff disk wellFormed path file
  rw [Disk.sourceOf, if_neg (by simp [names.relative])]
  split_ifs with there
  · obtain ⟨content, leads⟩ := names.leads
    obtain ⟨place, lead, -⟩ := nodeOf_ok disk true file _ leads
    have alike := names.placeOf disk wellFormed path file (found.mp there) true
    rw [normalize_ok disk path place (alike.trans lead), normalize_ok disk file place lead]
  · exact names.elsewhere disk wellFormed path file root absolute
      (not_not.mp fun goes => there (found.mpr goes))

end Files
end BuildWatch
