import BuildWatch.Proofs.Walk.Sources
import BuildWatch.Proofs.Walk.Succession
import BuildWatch.Proofs.Watch.Effect

/-!
# Roots that are named twice

A project that is compiled once and one that is watched have the same roots, but their walks do
not: to be watched the roots become a set, which keeps the first text of each root, and to be
compiled once they are walked as they are listed. So both compile the same files, and files of
a root that is listed again are compiled again by the one and not by the other.

A root below another one makes no such difference. Its files are found twice in both ways.
-/

namespace BuildWatch

namespace Path

/-- What some roots hold is what their set holds, and on top of it what roots hold that mean
the same as an earlier one. -/
theorem setOf_repeats (files : Path → List Path) (roots : List Path) :
    ∃ repeats, (roots.flatMap files).Perm ((setOf roots).flatMap files ++ repeats) ∧
      (repeats = [] ↔ roots.Pairwise fun one other => one.same other = true → files other = []) := by
  induction roots using List.reverseRecOn with
  | nil => exact ⟨[], by simp [setOf], by simp⟩
  | append_singleton before root inductionHypothesis =>
    obtain ⟨repeats, before_, none_⟩ := inductionHypothesis
    have step : setOf (before ++ [root]) = insertInto (setOf before) root := by simp [setOf]
    have known : root.memberOf (setOf before) = true ↔ ∃ earlier ∈ before, earlier.same root = true := by
      rw [memberOf_iff, (setOf_meanings before).2, List.mem_map]
      simp only [same, beq_iff_eq]
    rw [step, insertInto, List.flatMap_append, List.flatMap_singleton]
    simp only [List.pairwise_append, List.pairwise_singleton, List.forall_mem_singleton, true_and]
    split_ifs with held
    · obtain ⟨earlier, member, means⟩ := known.mp held
      refine ⟨repeats ++ files root, ?_, ?_⟩
      · rw [← List.append_assoc]
        exact before_.append_right _
      · rw [List.append_eq_nil_iff, none_]
        refine and_congr_right fun _ => ⟨fun empty _ _ _ => empty, fun all => all earlier member means⟩
    · refine ⟨repeats, ?_, ?_⟩
      · rw [List.flatMap_append, List.flatMap_singleton]
        refine (before_.append_right _).trans ?_
        rw [List.append_assoc, List.append_assoc]
        exact List.perm_append_comm.append_left _
      · rw [none_]
        refine (and_iff_left fun earlier member means => ?_).symm
        exact absurd (known.mpr ⟨earlier, member, means⟩) held

end Path

namespace Watcher

/-- What the worker is asked to compile when a project was just begun to be watched, its roots
are walked, and some things have happened to the walk. -/
def orderAfter (around : Surroundings) (project : Project) (current : Option Current)
    (happenings : List Walk.Happening) : Option Order :=
  let state := (startIn around project current).value.handleRaised.value
  let walks := happenings.foldl (fun walks happening => walks.happenAt 0 happening) state.walks
  { state with walks := walks }.collect.value.2

/-- What happens to the first walk does not touch its order among the walks. -/
theorem first_happens (walk : Walk) (happenings : List Walk.Happening) :
    happenings.foldl (fun walks happening => walks.happenAt 0 happening)
        ({ active := some walk } : Walks) =
      { active := some (happenings.foldl Walk.happen walk) } := by
  induction happenings generalizing walk with
  | nil => rfl
  | cons happening rest inductionHypothesis => exact inductionHypothesis (walk.happen happening)

/-- A project that is watched is compiled by a walk of the set of its roots. -/
theorem orderAfter_eq (around : Surroundings) (project : Project) (current : Option Current)
    (happenings : List Walk.Happening) :
    orderAfter around project current happenings =
      (Walk.run (Path.sort (Path.setOf project.roots)) happenings).answer.map fun files =>
        .compile (files.filter project.selects) := by
  have walks : (startIn around project current).value.handleRaised.value.walks =
      { active := some (Walk.start (Path.sort (Path.setOf project.roots))) } := by
    rw [handleRaised, startWalk_value]
    rfl
  have kept : (startIn around project current).value.handleRaised.value.project = project := by
    rw [handleRaised, startWalk_value]
    rfl
  have live := (Walk.live_run (Path.sort (Path.setOf project.roots)) happenings).answer
  simp only [orderAfter, walks, first_happens]
  rw [Walk.run] at live ⊢
  rcases live with ⟨unended, silent⟩ | ⟨files, ended, answers, -⟩
  · simp [collect, Walks.poll, unended, silent, Noted.quiet]
  · simp [collect, Walks.poll, ended, answers, orderFor, kept, Noted.andThen, Noted.quiet]

end Watcher

namespace Project

open Walk (Happening Found pairDisk pairRounds pairRounds_sees pairRounds_answer noTrouble)

variable (disk : Files.Disk) (trouble : Trouble) (project : Project)

/-- The files of a root that a project compiles. -/
def compiledIn (root : Path) : List Path :=
  (Walk.reported disk trouble (Walk.visits disk trouble (.list root))).filter project.selects

/-- A root holds no file that is compiled. -/
def HoldsNone (root : Path) : Prop :=
  ∀ file, Found disk trouble root file → project.selects file = false

theorem holdsNone_iff (wellFormed : disk.top.WellFormed) (root : Path) :
    HoldsNone disk trouble project root ↔ compiledIn disk trouble project root = [] := by
  simp only [HoldsNone, compiledIn, List.filter_eq_nil_iff,
    Walk.mem_reported_iff disk trouble wellFormed, Bool.not_eq_true]

/-- Of the files that a walk found, those are compiled that each of its roots has. -/
theorem answer_compiled (wellFormed : disk.top.WellFormed) (roots : List Path)
    (happenings : List Happening)
    (sees : ∀ happening ∈ happenings, happening.Sees (disk.viewWith trouble)) (files : List Path)
    (answers : (Walk.run roots happenings).answer = some files) :
    (files.filter project.selects).Perm (roots.flatMap (compiledIn disk trouble project)) := by
  have found := Walk.answer_perm disk trouble wellFormed roots happenings sees files answers
  exact (found.filter _).trans (List.filter_flatMap ▸ List.Perm.refl _)

/-- A project that is compiled once has the files of all its roots, in order. -/
theorem sourcesAfter_eq (wellFormed : disk.top.WellFormed) (happenings : List Happening)
    (sees : ∀ happening ∈ happenings, happening.Sees (disk.viewWith trouble)) (sources : List Path)
    (gives : project.sourcesAfter happenings = some sources) :
    ∃ files, sources = Path.sort files ∧
      files.Perm (project.roots.flatMap (compiledIn disk trouble project)) := by
  obtain ⟨files, answers, rfl⟩ := Option.map_eq_some_iff.mp gives
  exact ⟨_, rfl, answer_compiled disk trouble project wellFormed _ happenings sees files answers⟩

/-- A project that is watched has the files of the set of its roots. -/
theorem orderAfter_perm (wellFormed : disk.top.WellFormed) (around : Surroundings)
    (current : Option Current) (happenings : List Happening)
    (sees : ∀ happening ∈ happenings, happening.Sees (disk.viewWith trouble)) (files : List Path)
    (gives : Watcher.orderAfter around project current happenings = some (.compile files)) :
    files.Perm ((Path.setOf project.roots).flatMap (compiledIn disk trouble project)) := by
  rw [Watcher.orderAfter_eq] at gives
  obtain ⟨all, answers, same⟩ := Option.map_eq_some_iff.mp gives
  obtain rfl := Order.compile.inj same
  exact (answer_compiled disk trouble project wellFormed _ happenings sees all answers).trans
    ((Path.sort_perm _).flatMap_right _)

/-- **Both ways compile the same files, up to roots that are named twice.** Let the files not
change, let any folders and entries have trouble, and let the operations of both walks end in
any order. The list of a project that is compiled once is sorted, and means the same after
every walk; so it is the list that the project's own walk makes. It has the same files as the
order of a project that is watched, each as often, exactly when no root that is listed after
another text of it holds a file that is compiled.

Proof: either walk finds the files of its roots, those of each root once. The roots of the
second are a set, so what the first has on top are the files of roots that are listed again;
and a list that has more than another is no reordering of it. -/
theorem compiled_as_watched_iff (wellFormed : disk.top.WellFormed) (around : Surroundings)
    (current : Option Current) (checking watching : List Happening)
    (checkingSees : ∀ happening ∈ checking, happening.Sees (disk.viewWith trouble))
    (watchingSees : ∀ happening ∈ watching, happening.Sees (disk.viewWith trouble))
    (checked watched : List Path) (checks : project.sourcesAfter checking = some checked)
    (watches : Watcher.orderAfter around project current watching = some (.compile watched)) :
    checked.Pairwise (fun one other => one.le other = true) ∧
    (∀ again, (∀ happening ∈ again, happening.Sees (disk.viewWith trouble)) → ∀ others,
      project.sourcesAfter again = some others →
        others.map Path.components = checked.map Path.components) ∧
    (trouble = noTrouble →
      (project.sources disk).value.map Path.components = checked.map Path.components) ∧
    ((checked.map Path.components).Perm (watched.map Path.components) ↔
      project.roots.Pairwise fun one other =>
        one.same other = true → HoldsNone disk trouble project other) := by
  obtain ⟨files, rfl, mine⟩ :=
    sourcesAfter_eq disk trouble project wellFormed checking checkingSees checked checks
  have theirs := orderAfter_perm disk trouble project wellFormed around current watching watchingSees
    watched watches
  obtain ⟨repeats, listed, none⟩ :=
    Path.setOf_repeats (compiledIn disk trouble project) project.roots
  have whole : (Path.sort files).Perm (watched ++ repeats) :=
    (Path.sort_perm files).trans (mine.trans (listed.trans (theirs.symm.append_right repeats)))
  have alike (again : List Happening)
      (sees : ∀ happening ∈ again, happening.Sees (disk.viewWith trouble)) (others : List Path)
      (gives : project.sourcesAfter again = some others) :
      others.map Path.components = (Path.sort files).map Path.components := by
    obtain ⟨files', rfl, yours⟩ :=
      sourcesAfter_eq disk trouble project wellFormed again sees others gives
    exact Path.sort_congr files' files ((yours.trans mine.symm).map Path.components)
  refine ⟨Path.sort_ordered files, alike, ?_, ?_⟩
  · rintro rfl
    obtain ⟨again, sees, gives⟩ := sources_after disk wellFormed project
    exact alike again sees _ gives
  · simp only [holdsNone_iff disk trouble project wellFormed, ← none]
    constructor
    · intro equal
      have counted := equal.length_eq
      have sum := whole.length_eq
      rw [List.length_map, List.length_map] at counted
      rw [List.length_append] at sum
      exact List.eq_nil_of_length_eq_zero (by omega)
    · rintro rfl
      rw [List.append_nil] at whole
      exact whole.map Path.components

/-- A project with some roots, a worker, and no other settings. -/
def withRoots (roots : List Path) : Project where
  arguments := { job := .check }
  settings := { worker := { command := ["worker"] }, watch := { roots := roots } }
  root := ⟨"/"⟩
  settingsPath := ⟨"/kiln.toml"⟩

/-- A root that is named once is compiled alike in both ways. -/
theorem root_named_once_compiled_alike :
    (withRoots [⟨"/"⟩]).sourcesAfter (pairRounds 1) = some [⟨"/seen"⟩] ∧
    Watcher.orderAfter ⟨fun _ => true, fun _ => none⟩ (withRoots [⟨"/"⟩]) none (pairRounds 1) =
      some (.compile [⟨"/seen"⟩]) ∧
    (withRoots [⟨"/"⟩]).roots.Pairwise fun one other =>
      one.same other = true → HoldsNone pairDisk noTrouble (withRoots [⟨"/"⟩]) other := by
  have checks : (withRoots [⟨"/"⟩]).sourcesAfter (pairRounds 1) = some [⟨"/seen"⟩] := by
    have answers : (Walk.run (withRoots [⟨"/"⟩]).roots (pairRounds 1)).answer = some [⟨"/seen"⟩] :=
      pairRounds_answer.1
    rw [sourcesAfter, answers]
    decide +kernel
  have watches : Watcher.orderAfter ⟨fun _ => true, fun _ => none⟩ (withRoots [⟨"/"⟩]) none
      (pairRounds 1) = some (.compile [⟨"/seen"⟩]) := by
    have set : Path.sort (Path.setOf (withRoots [⟨"/"⟩]).roots) = [⟨"/"⟩] := by decide +kernel
    rw [Watcher.orderAfter_eq, set, pairRounds_answer.1]
    decide +kernel
  have agree := compiled_as_watched_iff pairDisk noTrouble (withRoots [⟨"/"⟩])
    Walk.pairDisk_wellFormed ⟨fun _ => true, fun _ => none⟩ none (pairRounds 1) (pairRounds 1)
    (pairRounds_sees 1) (pairRounds_sees 1) _ _ checks watches
  exact ⟨checks, watches, agree.2.2.2.mp (List.Perm.refl _)⟩

/-- The files of a root that is named twice are compiled twice, and once when it is watched. -/
theorem root_named_twice_compiled_twice :
    (withRoots [⟨"/"⟩, ⟨"/"⟩]).settings.check = .ok () ∧
    (∀ happening ∈ pairRounds 2 ++ pairRounds 1, happening.Sees (pairDisk.viewWith noTrouble)) ∧
    (withRoots [⟨"/"⟩, ⟨"/"⟩]).sourcesAfter (pairRounds 2) = some [⟨"/seen"⟩, ⟨"/seen"⟩] ∧
    Watcher.orderAfter ⟨fun _ => true, fun _ => none⟩ (withRoots [⟨"/"⟩, ⟨"/"⟩]) none
      (pairRounds 1) = some (.compile [⟨"/seen"⟩]) ∧
    ¬ ([⟨"/seen"⟩, ⟨"/seen"⟩].map Path.components).Perm ([⟨"/seen"⟩].map Path.components) := by
  refine ⟨by decide, ?_, ?_, ?_, fun equal => ?_⟩
  · intro happening member
    exact (List.mem_append.mp member).elim (pairRounds_sees 2 happening) (pairRounds_sees 1 happening)
  · have answers : (Walk.run (withRoots [⟨"/"⟩, ⟨"/"⟩]).roots (pairRounds 2)).answer =
        some [⟨"/seen"⟩, ⟨"/seen"⟩] := pairRounds_answer.2
    have selected : [⟨"/seen"⟩, ⟨"/seen"⟩].filter (withRoots [⟨"/"⟩, ⟨"/"⟩]).selects =
        List.replicate 2 ⟨"/seen"⟩ := by decide
    rw [sourcesAfter, answers, Option.map_some, selected, List.perm_replicate.mp (Path.sort_perm _)]
    rfl
  · have set : Path.sort (Path.setOf (withRoots [⟨"/"⟩, ⟨"/"⟩]).roots) = [⟨"/"⟩] := by
      decide +kernel
    rw [Watcher.orderAfter_eq, set, pairRounds_answer.1]
    decide +kernel
  · exact absurd equal.length_eq (by decide)

end Project
end BuildWatch
