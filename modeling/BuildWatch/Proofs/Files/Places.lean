import BuildWatch.Proofs.Files.Meaning
import Mathlib.Data.List.Induction

/-!
# Places and the paths that name them

Every place has one path without links and dots, which is the place's names from the top. It
leads to the place, unless a link stands there: then it leads to where the link does. A lookup
that follows a link at its end never ends at one, so the name of a file that was found by such
a lookup is the path of its place, and no link.

A relative path can also be read from the path of the current folder: it leads to the same
place, links counted alike, since none stand on the way to the current folder.
-/

namespace BuildWatch.Files

open BuildWatch.Path (slash)

/-- The path of a place starts at the root. -/
theorem path_absolute (place : Place) :
    (Place.path place).isAbsolute = true ∧ (Place.path place).bytes.isEmpty = false := by
  constructor
  · rw [Path.isAbsolute, Path.isRooted, Place.path, List.head?_cons]
    decide
  · rw [Place.path, List.isEmpty_cons]

/-- The path of a place is written as its names, each behind a slash. -/
theorem path_bytes (place : Place) (below : place ≠ []) :
    (Place.path place).bytes = place.flatMap fun name => slash :: name := by
  induction place with
  | nil => exact absurd rfl below
  | cons first rest inductionHypothesis =>
    cases rest with
    | nil => simp [Place.path, List.intercalate]
    | cons second others =>
      have later := inductionHypothesis (by simp)
      rw [List.flatMap_cons, ← later]
      simp [Place.path, List.intercalate]

/-- Without the slash of the top folder this holds of every place. -/
theorem path_stem (place : Place) (valid : ∀ name ∈ place, IsEntryName name) :
    stem (Place.path place) = place.flatMap fun name => slash :: name := by
  rcases List.eq_nil_or_concat' place with rfl | ⟨before, name, rfl⟩
  · decide
  · have own := valid name (by simp)
    rw [stem, path_bytes _ (by simp), if_neg]
    intro ends
    simp only [List.flatMap_append, List.flatMap_singleton, List.getLast?_append,
      List.getLast?_cons, Option.some_or, Option.some_inj] at ends
    rw [List.getLast?_eq_some_getLast own.nonempty, Option.getD_some] at ends
    exact own.inside (ends ▸ List.getLast_mem own.nonempty)

/-- The path of a place is looked up by its names. -/
theorem path_steps (place : Place) (valid : ∀ name ∈ place, IsEntryName name) :
    pieceSteps (stem (Place.path place)) = place.map .into := by
  rw [path_stem place valid]
  induction place using List.reverseRecOn with
  | nil => decide
  | append_singleton before name inductionHypothesis =>
    have earlier := inductionHypothesis fun other member => valid other (List.mem_append_left _ member)
    rw [List.flatMap_append, List.flatMap_singleton, pieceSteps_append, earlier,
      pieceSteps_name name (valid name (by simp)), List.map_append]
    rfl

/-- The path of a place means its names from the root. -/
theorem path_components (place : Place) (valid : ∀ name ∈ place, IsEntryName name) :
    (Place.path place).components = .root :: place.map .name := by
  obtain ⟨opening, means, opens⟩ := (Place.path place).components_eq
  rw [if_pos (path_absolute place).1] at opens
  have steps : moves (stepsOf (Place.path place).bytes) = place.map .into := by
    have stems : pieceSteps (Place.path place).bytes = pieceSteps (stem (Place.path place)) := by
      rcases stem_bytes (Place.path place) with ends | ⟨whole, -⟩
      · rw [ends, pieceSteps_slash]
      · rw [whole]
    rw [Path.moves_stepsOf, stems, path_steps place valid, moves, List.filter_eq_self]
    simp
  rw [means, opens, steps, List.map_map]
  rfl

/-- A place is told by its path. -/
theorem path_injective (place other : Place) (valid : ∀ name ∈ place, IsEntryName name)
    (valid' : ∀ name ∈ other, IsEntryName name)
    (same : (Place.path place).same (Place.path other) = true) : place = other := by
  rw [Path.same, beq_iff_eq, path_components place valid, path_components other valid',
    List.cons.injEq] at same
  exact (List.map_injective_iff.mpr fun one another => Component.name.inj) same.2

/-- The path of a place one name further is the path of an entry. -/
theorem path_snoc (place : Place) (name : Bytes) (valid : IsEntryName name)
    (others : ∀ other ∈ place, IsEntryName other) :
    Place.path (place ++ [name]) = (Place.path place).child name := by
  have bytes : (Place.path (place ++ [name])).bytes = ((Place.path place).child name).bytes := by
    rw [path_bytes _ (by simp),
      child_bytes _ name valid (path_absolute place).2, path_stem place others, List.flatMap_append,
      List.flatMap_singleton]
  exact congrArg Path.mk bytes

/-- Where something stands at a place, the names of the place can be names. -/
theorem node?_names (top : Folder) (place : Place) (node : Node) (wellFormed : top.WellFormed)
    (stands : top.node? place = some node) : ∀ name ∈ place, IsEntryName name := by
  induction place generalizing top with
  | nil => simp
  | cons first rest inductionHypothesis =>
    rw [Folder.node?] at stands
    split at stands
    · simp at stands
    · rename_i inner found
      obtain ⟨valid, -, formed⟩ := entry_of_mem top wellFormed first _ (mem_of_get? top first _ found)
      intro name member
      rcases List.mem_cons.mp member with rfl | later
      · exact valid
      · exact inductionHypothesis inner formed stands name later
    · rename_i other found
      obtain ⟨valid, -⟩ := entry_of_mem top wellFormed first _ (mem_of_get? top first _ found)
      split at stands
      · rename_i final
        obtain rfl := List.isEmpty_iff.mp final
        simpa using valid
      · simp at stands

/-- Above whatever stands at a place stands a folder that holds it. -/
theorem node?_above (top : Folder) (place : Place) (name : Bytes) (node : Node)
    (stands : top.node? (place ++ [name]) = some node) :
    ∃ entries, top.node? place = some (.folder entries) ∧ entries.get? name = some node := by
  induction place generalizing top with
  | nil =>
    refine ⟨top, rfl, ?_⟩
    rwa [node?_snoc top top [] name rfl] at stands
  | cons first rest inductionHypothesis =>
    rw [List.cons_append, Folder.node?] at stands
    split at stands
    · simp at stands
    · rename_i inner found
      obtain ⟨entries, above, holds⟩ := inductionHypothesis inner stands
      exact ⟨entries, by simp [Folder.node?, found, above], holds⟩
    · simp at stands

/-- An entry of a folder at a place stands one name further, and its path is that of its place. -/
theorem path_entry (top : Folder) (place : Place) (entries : Folder) (name : Bytes) (node : Node)
    (wellFormed : top.WellFormed) (stands : top.node? place = some (.folder entries))
    (holds : entries.get? name = some node) :
    Place.path (place ++ [name]) = (Place.path place).child name ∧
      top.node? (place ++ [name]) = some node := by
  have below := (node?_snoc top entries place name stands).trans holds
  have valid := node?_names top _ node wellFormed below
  exact ⟨path_snoc place name (valid name (by simp)) fun other member =>
    valid other (List.mem_append_left _ member), below⟩

/-- Something other than a link stands at a place. -/
def Firm (top : Folder) (place : Place) : Prop :=
  ∃ node, top.node? place = some node ∧ ∀ target, node ≠ .link target

/-- A folder stands above a folder, and the top folder is above itself. -/
theorem firm_dropLast (top : Folder) (place : Place) (entries : Folder)
    (stands : top.node? place = some (.folder entries)) : Firm top place.dropLast := by
  rcases List.eq_nil_or_concat' place with rfl | ⟨above, name, rfl⟩
  · exact ⟨.folder top, rfl, by simp⟩
  · obtain ⟨folder, holds, -⟩ := node?_above top above name _ stands
    exact ⟨.folder folder, by rwa [List.dropLast_concat], by simp⟩

variable (disk : Disk)

/-- The path of a place leads to the place, if no link stands there or links at the end are not
followed. -/
theorem placeOf_path (wellFormed : disk.top.WellFormed) (place : Place) (node : Node)
    (stands : disk.top.node? place = some node) :
    disk.placeOf false place.path = .ok place ∧
      ((∀ target, node ≠ .link target) → disk.placeOf true place.path = .ok place) := by
  suffices leads : disk.placeOf false place.path = .ok place from
    ⟨leads, placeOf_follow disk place.path place node leads stands⟩
  induction place using List.reverseRecOn generalizing node with
  | nil =>
    have steps : stepsOf (Place.path []).bytes = [.stay] := by decide
    have clean : (Place.path []).bytes.contains 0 = false := by decide
    rw [Disk.placeOf, steps, clean, (path_absolute []).1, (path_absolute []).2]
    simp [walkSteps, Folder.node?]
  | append_singleton above name inductionHypothesis =>
    obtain ⟨entries, folder, holds⟩ := node?_above disk.top above name node stands
    have leads := placeOf_follow disk _ above _ (inductionHypothesis _ folder) folder (by simp)
    have own := node?_names disk.top _ node wellFormed stands name (by simp)
    rw [(path_entry disk.top above entries name node wellFormed folder holds).1]
    exact placeOf_entry disk _ above entries name node leads folder own holds

/-- A walk through names of folders arrives at the place they name, and follows no link. -/
theorem walkSteps_names (top : Folder) (last : Bool) (links : Nat) (start names : Place)
    (entries inner : Folder) (rest : List Step) (formed : entries.WellFormed)
    (stands : top.node? start = some (.folder entries))
    (leads : entries.node? names = some (.folder inner)) :
    walkSteps top last links start (names.map .into ++ rest) =
      walkSteps top last links (start ++ names) rest := by
  induction names generalizing start entries with
  | nil => rw [List.map_nil, List.nil_append, List.append_nil]
  | cons first others inductionHypothesis =>
    rw [Folder.node?] at leads
    split at leads
    · simp at leads
    · rename_i below found
      obtain ⟨valid, -, good⟩ := entry_of_mem entries formed first _ (mem_of_get? entries first _ found)
      have short : ¬ nameLimit < first.length := Nat.not_lt.mpr valid.short
      have onward := inductionHypothesis (start ++ [first]) below good
        ((node?_snoc top entries start first stands).trans found) leads
      rw [List.map_cons, List.cons_append, walkSteps]
      simp only [stands, short, if_false, found]
      rw [onward, List.append_assoc, List.singleton_append]
    · rename_i other notFolder found
      split at leads
      · exact (notFolder inner (Option.some.inj leads)).elim
      · simp at leads

/-- A lookup that follows a link at its end ends where something other than a link stands. -/
theorem walkSteps_firm (top : Folder) (links : Nat) (start place : Place) (steps : List Step)
    (firm : Firm top start) (leads : walkSteps top true links start steps = .ok place) :
    Firm top place := by
  fun_induction walkSteps top true links start steps
  case case1 => exact Except.ok.inj leads ▸ firm
  case case3 inductionHypothesis => exact inductionHypothesis firm leads
  case case4 links above rest folder stands inductionHypothesis =>
    exact inductionHypothesis (firm_dropLast top above folder stands) leads
  case case7 final => simp at final
  case case10 above rest folder stands name short target found goesOn blank left inductionHypothesis =>
    refine inductionHypothesis ?_ leads
    split
    · exact ⟨.folder top, rfl, by simp⟩
    · exact firm
  case case11 links above rest folder stands name short node plain found inductionHypothesis =>
    exact inductionHypothesis ⟨node, (node?_snoc top folder above name stands).trans found, plain⟩ leads
  all_goals simp at leads

/-- A name that was found for a path, links followed, is the path of a place where something
other than a link stands. -/
theorem placeOf_firm (path : Path) (place : Place) (here : Firm disk.top disk.current)
    (leads : disk.placeOf true path = .ok place) : Firm disk.top place := by
  obtain ⟨-, -, walked⟩ := placeOf_ok disk true path place leads
  refine walkSteps_firm disk.top linkLimit _ place _ ?_ walked
  split
  · exact ⟨.folder disk.top, rfl, by simp⟩
  · exact here

/-- A path that is read from another one is looked up by the steps of both. -/
theorem stepsOf_join (base path : Path) (relative : path.isAbsolute = false)
    (there : base.bytes.isEmpty = false) (written : path.bytes.isEmpty = false) :
    stepsOf (base.join path).bytes = pieceSteps (stem base) ++ stepsOf path.bytes := by
  have nonempty : path.bytes ≠ [] := by simpa using written
  rw [stepsOf_eq, stepsOf_eq, join_bytes base path relative there, pieceSteps_append,
    List.append_assoc, List.getLast?_append, List.getLast?_cons, Option.some_or,
    List.getLast?_eq_some_getLast nonempty, Option.getD_some]

/-- A path that is read from the path of the current folder is found as it is found alone. -/
theorem placeOf_current (wellFormed : disk.top.WellFormed) (last : Bool) (path : Path)
    (entries : Folder) (stands : disk.top.node? disk.current = some (.folder entries))
    (relative : path.isAbsolute = false) (written : path.bytes.isEmpty = false) :
    disk.placeOf last (disk.currentPath.join path) = disk.placeOf last path := by
  have valid := node?_names disk.top disk.current _ wellFormed stands
  obtain ⟨absolute, base⟩ : disk.currentPath.isAbsolute = true ∧
      disk.currentPath.bytes.isEmpty = false := path_absolute disk.current
  have bytes := join_bytes disk.currentPath path relative base
  have there : (disk.currentPath.join path).bytes.isEmpty = false := by
    rw [Bool.eq_false_iff, ne_eq, List.isEmpty_iff]
    intro empty
    simp [empty] at bytes
  have clean : (disk.currentPath.join path).bytes.contains 0 = path.bytes.contains 0 := by
    have names : 0 ∉ stem disk.currentPath := by
      rw [Disk.currentPath, path_stem _ valid, List.mem_flatMap]
      rintro ⟨name, member, within⟩
      rcases List.mem_cons.mp within with border | within
      · exact absurd border (by decide)
      · exact (valid name member).noZero within
    have border : 0 ≠ slash := by decide
    rw [Bool.eq_iff_iff, List.contains_iff_mem, List.contains_iff_mem, bytes, List.mem_append,
      List.mem_cons]
    simp [names, border]
  have onward : walkSteps disk.top last linkLimit [] (stepsOf (disk.currentPath.join path).bytes) =
      walkSteps disk.top last linkLimit disk.current (stepsOf path.bytes) := by
    rw [stepsOf_join _ path relative base written, Disk.currentPath, path_steps _ valid]
    exact walkSteps_names disk.top last linkLimit [] disk.current disk.top entries _ wellFormed rfl stands
  rw [Disk.placeOf, Disk.placeOf, there, written, clean, relative,
    join_absolute _ path relative base, absolute, if_pos rfl, onward]
  rfl

end BuildWatch.Files
