import BuildWatch.Proofs.Path.Order
import BuildWatch.Proofs.Walk.Coverage
import BuildWatch.Sources

/-!
# The files that a project compiles

A project that is compiled once is walked by a walk of its own, which lets the oldest operation
end and then goes on, for a number of rounds that is fixed before it starts. Every round takes
one operation off those that are left, and a tree has few enough of them for the walk to answer
in time. So the list that is compiled is one that some order of the operations brings about.

Which order makes no difference: every walk that answers found the same files, and the list is
sorted.
-/

namespace BuildWatch

namespace Walk

open Files (Disk Folder Node)

variable (disk : Disk) (trouble : Trouble)

/-- The files that are found below some roots, those of each root in turn. -/
def filesOf (roots : List Path) : List Path :=
  roots.flatMap fun root => reported disk trouble (visits disk trouble (.list root))

theorem mem_filesOf (wellFormed : disk.top.WellFormed) (roots : List Path) (file : Path) :
    file ∈ filesOf disk trouble roots ↔ ∃ root ∈ roots, Found disk trouble root file := by
  simp only [filesOf, List.mem_flatMap, mem_reported_iff disk trouble wellFormed]

/-- Whatever the order of the operations, a walk that has answered found these files. -/
theorem answer_perm (wellFormed : disk.top.WellFormed) (roots : List Path)
    (happenings : List Happening)
    (sees : ∀ happening ∈ happenings, happening.Sees (disk.viewWith trouble)) (files : List Path)
    (answers : (run roots happenings).answer = some files) :
    files.Perm (filesOf disk trouble roots) := by
  rcases stage_sees trouble disk wellFormed roots happenings sees with
    ⟨-, silent, -⟩ | ⟨-, -, -, -, found, given, all⟩
  · simp [silent] at answers
  · obtain rfl : found = files := Option.some.inj (given.symm.trans answers)
    exact all

mutual

/-- Every node below an entry is inspected and listed at most once. -/
theorem nodeVisits_length (path : Path) (node : Node) :
    (nodeVisits trouble path node).length ≤ 2 * node.size := by
  match node with
  | .file content | .link target | .pipe => simp [nodeVisits, Node.size]
  | .folder entries =>
    have below := entryVisits_length path entries
    rw [nodeVisits, Node.size, List.length_cons]
    split_ifs
    · rw [List.length_nil]
      omega
    · rw [List.length_singleton]
      omega
    · rw [List.length_cons]
      omega

theorem entryVisits_length (path : Path) (entries : Folder) :
    (entryVisits trouble path entries).length ≤ 2 * entries.size := by
  match entries with
  | .empty => simp [entryVisits]
  | .entry name node rest =>
    have own := nodeVisits_length (path.child name) node
    have others := entryVisits_length path rest
    rw [entryVisits, Folder.size, List.length_append]
    split_ifs
    · rw [List.length_nil]
      omega
    · omega

end

/-- What stands in a folder is no larger than the folder. -/
theorem get?_size (entries : Folder) (name : Bytes) (node : Node)
    (found : entries.get? name = some node) : node.size ≤ entries.size := by
  induction entries using Files.Folder.toList.induct with
  | case1 => simp [Folder.get?] at found
  | case2 first other rest inductionHypothesis =>
    rw [Folder.get?] at found
    rw [Folder.size]
    split_ifs at found
    · obtain rfl := Option.some.inj found
      omega
    · have later := inductionHypothesis found
      omega

theorem node?_size (top : Folder) (place : Files.Place) (node : Node)
    (stands : top.node? place = some node) : node.size ≤ top.size + 1 := by
  induction place generalizing top with
  | nil =>
    obtain rfl := Option.some.inj stands
    rw [Node.size]
  | cons first rest inductionHypothesis =>
    rw [Folder.node?] at stands
    split at stands
    · simp at stands
    · rename_i inner found
      have below := inductionHypothesis inner stands
      have within := get?_size top first _ found
      rw [Node.size] at within
      omega
    · rename_i other found
      have within := get?_size top first _ found
      split at stands
      · obtain rfl := Option.some.inj stands
        omega
      · simp at stands

/-- The operations for some roots are fewer than the rounds. -/
theorem visits_length (roots : List Path) :
    ((roots.map Operation.list).flatMap (visits disk trouble)).length ≤
      roots.length * (2 * disk.top.size + 1) := by
  induction roots with
  | nil => simp
  | cons root rest inductionHypothesis =>
    have own : (visits disk trouble (.list root)).length ≤ 2 * disk.top.size + 1 := by
      rw [visits]
      split
      · rename_i entries listed leads
        obtain ⟨place, -, stands⟩ := Files.nodeOf_ok disk true root _ leads
        have small := node?_size disk.top place _ stands
        have below := entryVisits_length trouble root entries
        rw [Node.size] at small
        rw [List.length_cons]
        omega
      · simp
    rw [List.map_cons, List.flatMap_cons, List.length_append, List.length_cons, Nat.succ_mul]
    omega

/-- A walk between two rounds: no result waits, and it counts the operations that run. -/
structure Between (walk : Walk) : Prop where
  live : walk.cancelled = false
  unended : walk.ended = false
  empty : walk.arrived = []
  counted : walk.outstanding = walk.running.length

theorem between_start (roots : List Path) : Between (start roots) := by
  exact ⟨rfl, rfl, rfl, by simp [start]⟩

/-- A round of a walk without operations ends it with its answer. -/
theorem round_last (view : View) (walk : Walk) (between : Between walk) (idle : walk.running = []) :
    (advance (complete view walk 0)).value =
      { walk with ended := true, answer := some walk.files } := by
  have settled : walk.outstanding = 0 := by rw [between.counted, idle, List.length_nil]
  simp [complete, idle, advance, between.live, between.unended, settled]

/-- A round of any other walk takes its oldest operation off and adds what that issues. -/
theorem round_first (view : View) (walk : Walk) (between : Between walk) (operation : Operation)
    (rest : List Operation) (runs : walk.running = operation :: rest) :
    Between (advance (complete view walk 0)).value ∧
      (advance (complete view walk 0)).value.running =
        rest ++ (operation.perform view).issues := by
  obtain ⟨live, unended, empty, counted⟩ := between
  have ends : complete view walk 0 =
      { walk with running := rest, arrived := [operation.perform view] } := by
    simp [complete, runs, live, empty]
  have open_ : walk.outstanding ≠ 0 := by simp [counted, runs]
  rw [ends, advance_taken { walk with running := rest, arrived := [operation.perform view] }
    (operation.perform view) [] live unended open_ rfl, takeIn_value]
  refine ⟨⟨live, unended, rfl, ?_⟩, rfl⟩
  simp [issue, counted, runs]

/-- Enough rounds make a walk answer. -/
theorem rounds_answer (wellFormed : disk.top.WellFormed) (count : Nat) (walk : Walk)
    (between : Between walk)
    (enough : (walk.running.flatMap (visits disk trouble)).length < count) :
    (rounds (disk.viewWith trouble) count walk).value.answer ≠ none := by
  induction count generalizing walk with
  | zero => simp at enough
  | succ count inductionHypothesis =>
    have further : (rounds (disk.viewWith trouble) (count + 1) walk).value =
        (rounds (disk.viewWith trouble) count
          (advance (complete (disk.viewWith trouble) walk 0)).value).value := by
      simp [rounds, between.unended, Noted.andThen]
    rw [further]
    cases runs : walk.running with
    | nil =>
      rw [round_last _ walk between runs]
      cases count <;> simp [rounds, Noted.quiet]
    | cons operation rest =>
      obtain ⟨again, running⟩ := round_first (disk.viewWith trouble) walk between operation rest runs
      refine inductionHypothesis _ again ?_
      rw [runs, List.flatMap_cons, visits_eq disk trouble wellFormed, List.length_append,
        List.length_cons] at enough
      rw [running, List.flatMap_append, List.length_append]
      omega

/-- Rounds are some of the things that can happen to a walk. -/
theorem rounds_run (view : View) (roots : List Path) (count : Nat) (before : List Happening) :
    ∃ happenings : List Happening, (∀ happening ∈ happenings, happening.Sees view) ∧
      (rounds view count (run roots before)).value = run roots (before ++ happenings) := by
  induction count generalizing before with
  | zero => exact ⟨[], by simp, by simp [rounds, Noted.quiet]⟩
  | succ count inductionHypothesis =>
    cases ended : (run roots before).ended with
    | true => exact ⟨[], by simp, by simp [rounds, ended, Noted.quiet]⟩
    | false =>
      obtain ⟨later, sees, goes⟩ := inductionHypothesis (before ++ [.ends view 0] ++ [.goesOn])
      refine ⟨.ends view 0 :: .goesOn :: later, ?_, ?_⟩
      · intro happening member
        rcases List.mem_cons.mp member with rfl | member
        · rfl
        · rcases List.mem_cons.mp member with rfl | member
          · trivial
          · exact sees happening member
      · have next : (rounds view (count + 1) (run roots before)).value =
            (rounds view count (run roots (before ++ [.ends view 0] ++ [.goesOn]))).value := by
          rw [run_snoc, run_snoc]
          simp [rounds, ended, Noted.andThen, happen]
        rw [next, goes]
        simp

end Walk

namespace Project

open Files (Disk)

/-- What a project compiles once a walk of its roots has answered. -/
def sourcesAfter (project : Project) (happenings : List Walk.Happening) : Option (List Path) :=
  (Walk.run project.roots happenings).answer.map fun files => Path.sort (files.filter project.selects)

/-- The files of a project are what it compiles after some walk that answers. -/
theorem sources_after (disk : Disk) (wellFormed : disk.top.WellFormed) (project : Project) :
    ∃ happenings : List Walk.Happening, (∀ happening ∈ happenings, happening.Sees disk.view) ∧
      project.sourcesAfter happenings = some (project.sources disk).value := by
  have plain : disk.view = disk.viewWith Walk.noTrouble := rfl
  obtain ⟨happenings, sees, goes⟩ := Walk.rounds_run disk.view project.roots
    (Walk.roundBound project.roots.length disk.top.size) []
  have enough := Walk.visits_length disk Walk.noTrouble project.roots
  have answers := Walk.rounds_answer disk Walk.noTrouble wellFormed
    (Walk.roundBound project.roots.length disk.top.size) _ (Walk.between_start project.roots)
    (by
      simp only [Walk.start, Walk.roundBound]
      omega)
  rw [← plain] at answers
  obtain ⟨files, given⟩ := Option.ne_none_iff_exists'.mp answers
  have answer : (Walk.run project.roots happenings).answer = some files := by
    rw [← given]
    exact congrArg Walk.answer goes.symm
  have found : (Walk.filesBelow disk project.roots).value = files := congrArg (Option.getD · []) given
  refine ⟨happenings, sees, ?_⟩
  rw [sourcesAfter, answer, Option.map_some, sources]
  exact congrArg (fun files => some (Path.sort (files.filter project.selects))) found.symm

end Project
end BuildWatch
