import BuildWatch.Proofs.Files.Meaning
import BuildWatch.Proofs.Walk.Found

/-!
# A walk finds what its roots hold

A walk takes the same number of moments whatever the order in which its operations end:
every operation ends once, every result is taken in once, and then the walk answers. So a
walk that is not stopped answers as soon as it has made its moments, and until then there
is always one to make. What it answers does not depend on the order either.

The tree stays as it is while the walk goes on; the trouble with folders and entries may be
any.
-/

namespace BuildWatch.Walk

open Files (Disk Folder Node)
open BuildWatch.Path (slash)

/-- The path that an operation is about. -/
def Operation.path : Operation → Path
  | .list folder => folder
  | .inspect entry => entry

/-- Whether bytes end, or go on with a slash. -/
def IsOnward (more : Bytes) : Prop := more = [] ∨ ∃ rest, more = slash :: rest

/-- A name ends where bytes go on behind it. -/
theorem name_unique (name other : Bytes) (more beyond : Bytes) (valid : Files.IsEntryName name)
    (proper : Files.IsEntryName other) (onward : IsOnward more) (further : IsOnward beyond)
    (same : name ++ more = other ++ beyond) : name = other := by
  have cut : ∀ (bytes : Bytes) (tail : Bytes), Files.IsEntryName bytes → IsOnward tail →
      (bytes ++ tail).takeWhile (· ≠ slash) = bytes := by
    intro bytes tail inside onward
    have whole : ∀ byte ∈ bytes, decide (byte ≠ slash) = true := by
      intro byte member
      exact decide_eq_true fun border => inside.inside (border ▸ member)
    rw [List.takeWhile_append_of_pos whole]
    rcases onward with rfl | ⟨rest, rfl⟩ <;> simp
  rw [← cut name more valid onward, ← cut other beyond proper further, same]

variable (trouble : Trouble)

mutual

/-- What is visited for a node is about its path or one below it. -/
theorem nodeVisits_path (path : Path) (node : Node) (formed : node.WellFormed)
    (written : path.bytes.isEmpty = false) (plain : Files.stem path = path.bytes)
    (operation : Operation) (visited : operation ∈ nodeVisits trouble path node) :
    ∃ more, IsOnward more ∧ operation.path.bytes = path.bytes ++ more := by
  match node with
  | .file content | .link target | .pipe =>
    obtain rfl : operation = .inspect path := by simpa [nodeVisits] using visited
    exact ⟨[], Or.inl rfl, by simp [Operation.path]⟩
  | .folder inner =>
    have shape : operation = .inspect path ∨ operation = .list path ∨
        operation ∈ entryVisits trouble path inner := by
      rw [nodeVisits, List.mem_cons] at visited
      refine visited.imp id fun inside => ?_
      split_ifs at inside
      · simp at inside
      · exact Or.inl (by simpa using inside)
      · exact (List.mem_cons.mp inside)
    rcases shape with rfl | rfl | below
    · exact ⟨[], Or.inl rfl, by simp [Operation.path]⟩
    · exact ⟨[], Or.inl rfl, by simp [Operation.path]⟩
    · obtain ⟨name, -, -, more, -, bytes⟩ := entryVisits_path path inner formed written operation below
      exact ⟨slash :: (name ++ more), Or.inr ⟨_, rfl⟩, by rw [bytes, plain]⟩

/-- What is visited for the entries of a folder is about the path of one of them or one
below it. -/
theorem entryVisits_path (path : Path) (entries : Folder) (formed : entries.WellFormed)
    (written : path.bytes.isEmpty = false) (operation : Operation)
    (visited : operation ∈ entryVisits trouble path entries) :
    ∃ name, name ∈ entries.names ∧ Files.IsEntryName name ∧
      ∃ more, IsOnward more ∧
        operation.path.bytes = Files.stem path ++ slash :: (name ++ more) := by
  match entries with
  | .empty => simp [entryVisits] at visited
  | .entry name node rest =>
    obtain ⟨valid, -, nodeFormed, restFormed⟩ := formed
    rw [entryVisits, List.mem_append] at visited
    rcases visited with own | others
    · have visible : operation ∈ nodeVisits trouble (path.child name) node := by
        split_ifs at own <;> simp_all
      obtain ⟨more, onward, bytes⟩ := nodeVisits_path (path.child name) node nodeFormed
        (Files.child_written path name valid written) (Files.stem_child path name valid written)
        operation visible
      refine ⟨name, by simp [Folder.names, Folder.toList], valid, more, onward, ?_⟩
      rw [bytes, Files.child_bytes path name valid written, List.append_assoc, List.cons_append]
    · obtain ⟨other, member, proper, more, onward, bytes⟩ :=
        entryVisits_path path rest restFormed written operation others
      exact ⟨other, by simp_all [Folder.names, Folder.toList], proper, more, onward, bytes⟩

end

/-- Nothing that is visited below a folder is about the folder itself. -/
theorem entryVisits_below (path : Path) (entries : Folder) (formed : entries.WellFormed)
    (written : path.bytes.isEmpty = false) (operation : Operation)
    (visited : operation ∈ entryVisits trouble path entries) : operation.path ≠ path := by
  obtain ⟨name, -, valid, more, -, bytes⟩ :=
    entryVisits_path trouble path entries formed written operation visited
  intro same
  have named : 0 < name.length := List.length_pos_of_ne_nil valid.nonempty
  have short : path.bytes.length ≤ (Files.stem path).length + 1 := by
    rcases Files.stem_bytes path with ends | ⟨ends, -⟩ <;> rw [ends] <;> simp
  have long := congrArg List.length bytes
  rw [same, List.length_append, List.length_cons, List.length_append] at long
  omega

mutual

/-- Nothing is visited twice for a node. -/
theorem nodeVisits_nodup (path : Path) (node : Node) (formed : node.WellFormed)
    (written : path.bytes.isEmpty = false) :
    (nodeVisits trouble path node).Nodup := by
  match node with
  | .file content | .link target | .pipe => simp [nodeVisits]
  | .folder inner =>
    have below := entryVisits_below trouble path inner formed written
    have once := entryVisits_nodup path inner formed written
    have inspected : .inspect path ∉ entryVisits trouble path inner := fun member => below _ member rfl
    have listed : .list path ∉ entryVisits trouble path inner := fun member => below _ member rfl
    rw [nodeVisits]
    split_ifs <;> simp [once, inspected, listed]

/-- Nothing is visited twice for the entries of a folder. -/
theorem entryVisits_nodup (path : Path) (entries : Folder) (formed : entries.WellFormed)
    (written : path.bytes.isEmpty = false) : (entryVisits trouble path entries).Nodup := by
  match entries with
  | .empty => simp [entryVisits]
  | .entry name node rest =>
    obtain ⟨valid, fresh, nodeFormed, restFormed⟩ := formed
    have childWritten := Files.child_written path name valid written
    have childPlain := Files.stem_child path name valid written
    have own := nodeVisits_nodup (path.child name) node nodeFormed childWritten
    have others := entryVisits_nodup path rest restFormed written
    have apart : ∀ operation ∈ nodeVisits trouble (path.child name) node,
        operation ∉ entryVisits trouble path rest := by
      intro operation here there
      obtain ⟨more, onward, bytes⟩ :=
        nodeVisits_path trouble (path.child name) node nodeFormed childWritten childPlain operation here
      obtain ⟨other, member, proper, beyond, further, beside⟩ :=
        entryVisits_path trouble path rest restFormed written operation there
      rw [Files.child_bytes path name valid written, List.append_assoc, List.cons_append] at bytes
      have same : name ++ more = other ++ beyond := by simpa [bytes] using beside
      exact fresh (name_unique name other more beyond valid proper onward further same ▸ member)
    rw [entryVisits, List.nodup_append]
    refine ⟨?_, others, ?_⟩
    · split_ifs
      · exact List.nodup_nil
      · exact own
    · rintro operation here other there rfl
      split_ifs at here
      · simp at here
      · exact apart operation here there

end

variable (disk : Disk)

/-- Nothing is visited twice for a root. -/
theorem visits_nodup (wellFormed : disk.top.WellFormed) (root : Path) :
    (visits disk trouble (.list root)).Nodup := by
  rw [visits]
  split
  · rename_i entries listed leads
    obtain ⟨place, found, stands⟩ := Files.nodeOf_ok disk true root _ leads
    obtain ⟨written, -⟩ := Files.placeOf_ok disk true root place found
    have formed : entries.WellFormed := Files.node?_wellFormed disk.top place _ wellFormed stands
    exact List.nodup_cons.mpr
      ⟨fun member => entryVisits_below trouble root entries formed written _ member rfl,
        entryVisits_nodup trouble root entries formed written⟩
  · exact List.nodup_singleton _

/-- No file is reported twice for a root. -/
theorem reported_nodup (wellFormed : disk.top.WellFormed) (root : Path) :
    (reported disk trouble (visits disk trouble (.list root))).Nodup := by
  rw [reported, List.nodup_flatMap]
  constructor
  · intro operation _
    cases operation with
    | list folder => simp [list_reports]
    | inspect entry =>
      rw [(inspect_reports disk trouble entry).2]
      split <;> simp
  · refine (visits_nodup trouble disk wellFormed root).imp ?_
    intro operation other differ path here there
    exact differ ((reports_own _ operation path here).trans (reports_own _ other path there).symm)

/-- Whether the files are as a view shows them when something happens. -/
def Happening.Sees (view : View) : Happening → Prop
  | .ends seen _ => seen = view
  | .goesOn => True

/-- The moments that are left to a walk of files that do not change: its operations and those
below them each end and have a result taken in, the results that wait are taken in, and at
last the walk answers. -/
def left (walk : Walk) : Nat :=
  2 * (walk.running.flatMap (visits disk trouble)).length +
    (walk.arrived.map fun result =>
      2 * (result.issues.flatMap (visits disk trouble)).length + 1).sum +
    if walk.ended then 0 else 1

/-- A happening that changes a walk is one of the moments that were left to it. -/
theorem left_happen (wellFormed : disk.top.WellFormed) (walk : Walk) (happening : Happening)
    (live : walk.cancelled = false) (sees : happening.Sees (disk.viewWith trouble))
    (changes : walk.happen happening ≠ walk) :
    left trouble disk (walk.happen happening) + 1 = left trouble disk walk := by
  cases happening with
  | ends view position =>
    obtain rfl : view = disk.viewWith trouble := sees
    by_cases inside : position < walk.running.length
    · have before : (walk.running.flatMap (visits disk trouble)).length =
          (visits disk trouble walk.running[position]).length +
            ((walk.running.eraseIdx position).flatMap (visits disk trouble)).length := by
        have same := (List.getElem_cons_eraseIdx_perm inside).symm.flatMap_right (visits disk trouble)
        rw [same.length_eq, List.flatMap_cons, List.length_append]
      rw [visits_eq disk trouble wellFormed, List.length_cons] at before
      simp only [left, happen, complete, List.getElem?_eq_getElem inside, live, Bool.false_eq_true,
        if_false, List.map_append, List.sum_append, List.map_cons, List.map_nil, List.sum_singleton,
        before]
      omega
    · exact absurd (by simp [happen, complete, inside]) changes
  | goesOn =>
    cases ended : walk.ended with
    | true => exact absurd (by simp [happen, advance, ended, Noted.quiet]) changes
    | false =>
      by_cases settled : walk.outstanding = 0
      · simp [left, happen, advance, ended, live, settled]
      · cases oldest : walk.arrived with
        | nil =>
          exact absurd (by simp [happen, advance, ended, live, settled, oldest, Noted.quiet]) changes
        | cons result rest =>
          rw [happen, advance_taken walk result rest live ended settled oldest, takeIn_value]
          simp only [left, issue, oldest, ended, List.flatMap_append, List.length_append, List.map_cons,
            List.sum_cons]
          omega

/-- A walk that is not stopped and has not answered can be changed by a happening. -/
theorem balanced_changes (told : Operation → Result → Prop) (walk : Walk) (view : View)
    (live : walk.cancelled = false) (unended : walk.ended = false) (balanced : Balanced told walk) :
    ∃ happening : Happening, happening.Sees view ∧ walk.happen happening ≠ walk := by
  by_cases settled : walk.outstanding = 0
  · refine ⟨.goesOn, trivial, fun same => ?_⟩
    have ended := congrArg Walk.ended same
    simp [happen, advance, unended, live, settled] at ended
  · cases oldest : walk.arrived with
    | cons result rest =>
      refine ⟨.goesOn, trivial, fun same => ?_⟩
      rw [happen, advance_taken walk result rest live unended settled oldest, takeIn_value] at same
      have waiting := congrArg Walk.arrived same
      simp [issue, oldest] at waiting
    | nil =>
      have busy : 0 < walk.running.length := by
        have counted := balanced.counted
        rw [oldest, List.length_nil] at counted
        omega
      refine ⟨.ends view 0, rfl, fun same => ?_⟩
      have arrived := congrArg Walk.arrived same
      simp [happen, complete, busy, live, oldest] at arrived

/-- Whether no happening leaves a walk of some roots as it is. -/
def Brisk (roots : List Path) (happenings : List Happening) : Prop :=
  ∀ before happening after, happenings = before ++ happening :: after →
    (run roots before).happen happening ≠ run roots before

/-- A walk that does not idle was brisk before, and was changed by what happened last. -/
theorem brisk_snoc (roots : List Path) (happenings : List Happening) (last : Happening) :
    Brisk roots (happenings ++ [last]) ↔
      Brisk roots happenings ∧ (run roots happenings).happen last ≠ run roots happenings := by
  constructor
  · intro brisk
    refine ⟨fun before happening after split => ?_, brisk happenings last [] rfl⟩
    exact brisk before happening (after ++ [last]) (by simp [split])
  · rintro ⟨brisk, changes⟩ before happening after split
    rcases List.eq_nil_or_concat' after with rfl | ⟨rest, final, rfl⟩
    · obtain ⟨rfl, same⟩ := List.append_inj' split rfl
      obtain rfl := List.singleton_inj.mp same
      exact changes
    · rw [← List.cons_append, ← List.append_assoc] at split
      exact brisk before happening rest (List.append_inj' split rfl).1

/-- The moments that a walk of some roots takes. -/
def moments (roots : List Path) : Nat :=
  2 * ((roots.map Operation.list).flatMap (visits disk trouble)).length + 1

/-- In a walk that does not idle, the moments that were and those that are left are all it
takes. -/
theorem left_run (wellFormed : disk.top.WellFormed) (roots : List Path)
    (happenings : List Happening)
    (sees : ∀ happening ∈ happenings, happening.Sees (disk.viewWith trouble))
    (brisk : Brisk roots happenings) :
    happenings.length + left trouble disk (run roots happenings) = moments trouble disk roots := by
  induction happenings using List.reverseRecOn with
  | nil => simp [run, left, start, moments]
  | append_singleton before happening inductionHypothesis =>
    have early : ∀ earlier ∈ before, earlier.Sees (disk.viewWith trouble) := fun earlier member =>
      sees earlier (List.mem_append_left _ member)
    obtain ⟨briskBefore, changes⟩ := (brisk_snoc roots before happening).mp brisk
    have sofar := inductionHypothesis early briskBefore
    have moment := left_happen trouble disk wellFormed (run roots before) happening
      (live_run roots before).kept (sees happening (by simp)) changes
    rw [run_snoc, List.length_append, List.length_singleton]
    omega

/-- A walk of files that do not change has either not answered yet, or it is done and has answered
with what its roots make it visit. -/
theorem stage_sees (wellFormed : disk.top.WellFormed) (roots : List Path)
    (happenings : List Happening)
    (sees : ∀ happening ∈ happenings, happening.Sees (disk.viewWith trouble)) :
    ((run roots happenings).ended = false ∧ (run roots happenings).answer = none ∧
      ∃ happening : Happening, happening.Sees (disk.viewWith trouble) ∧
        (run roots happenings).happen happening ≠ run roots happenings) ∨
    (run roots happenings).ended = true ∧ (run roots happenings).running = [] ∧
      (run roots happenings).arrived = [] ∧ (run roots happenings).outstanding = 0 ∧
      ∃ files, (run roots happenings).answer = some files ∧
        files.Perm (roots.flatMap fun root =>
          reported disk trouble (visits disk trouble (.list root))) := by
  obtain ⟨same, live, stage⟩ := stage_run
    (fun operation result => result = operation.perform (disk.viewWith trouble)) roots happenings
    fun happening member => by
      cases happening with
      | ends view position =>
        obtain rfl : view = disk.viewWith trouble := sees _ member
        exact fun operation => rfl
      | goesOn => trivial
  cases stage with
  | stopped cancelled silent => simp [live] at cancelled
  | going _ unended silent balanced =>
    exact Or.inl ⟨unended, silent, balanced_changes _ _ _ live unended balanced⟩
  | answered files ended answers idle empty settled complete =>
    have all := yields_visits disk trouble wellFormed _ _ complete
    rw [same, reported, List.flatMap_map, List.flatMap_assoc] at all
    exact Or.inr ⟨ended, idle, empty, settled, files, answers, Multiset.coe_eq_coe.mp all⟩

/-- **A walk finds what its roots hold.** The files do not change while it goes on, any folders
and entries may have trouble, and operations end in any order.

A walk that does not idle takes the same number of moments in every order, and it has answered
exactly when it has taken them all; before, some happening changes it. Once it has answered, no
operation runs, no result waits, none is counted, and nothing that happens changes it any more,
so it answers once. What it answers are the files found for each root separately, each file of
a root once, in some order. Hidden names are left out, and those are the texts that start with a
dot; a name of broken characters is found with whatever byte it starts.

Proof: each moment takes one off the moments that are left, and a walk with none left has its
ledger settled. Then its operations led to all its files, and in a tree that does not change
these are the files that are reported by what the roots make a walk visit. -/
theorem finds_files_of_roots (wellFormed : disk.top.WellFormed) (roots : List Path)
    (happenings : List Happening)
    (sees : ∀ happening ∈ happenings, happening.Sees (disk.viewWith trouble)) :
    (Brisk roots happenings →
      happenings.length ≤ moments trouble disk roots ∧
        ((run roots happenings).answer ≠ none ↔ happenings.length = moments trouble disk roots)) ∧
    ((run roots happenings).answer = none →
      ∃ happening : Happening, happening.Sees (disk.viewWith trouble) ∧
        (run roots happenings).happen happening ≠ run roots happenings) ∧
    ∀ files, (run roots happenings).answer = some files →
      (run roots happenings).running = [] ∧ (run roots happenings).arrived = [] ∧
      (run roots happenings).outstanding = 0 ∧
      (∀ happening, (run roots happenings).happen happening = run roots happenings) ∧
      ∃ parts : List (List Path), files.Perm parts.flatten ∧
        List.Forall₂ (fun root part => part.Nodup ∧
          ∀ path, path ∈ part ↔ Found disk trouble root path) roots parts := by
  have spent := left_run trouble disk wellFormed roots happenings sees
  rcases stage_sees trouble disk wellFormed roots happenings sees with
    ⟨unended, silent, changes⟩ | ⟨ended, idle, empty, settled, found, answers, all⟩
  · refine ⟨fun brisk => ?_, fun _ => changes, ?_⟩
    · have more : left trouble disk (run roots happenings) ≠ 0 := by simp [left, unended]
      have total := spent brisk
      exact ⟨by omega, by simp [silent]; omega⟩
    · intro files answers
      simp [silent] at answers
  · refine ⟨fun brisk => ?_, fun silent => by simp [answers] at silent, ?_⟩
    · have none : left trouble disk (run roots happenings) = 0 := by simp [left, ended, idle, empty]
      have total := spent brisk
      exact ⟨by omega, by simp [answers]; omega⟩
    · intro files given
      obtain rfl : found = files := Option.some.inj (answers.symm.trans given)
      refine ⟨idle, empty, settled, fun happening => answered_happen _ happening ended idle,
        roots.map fun root => reported disk trouble (visits disk trouble (.list root)), all, ?_⟩
      rw [List.forall₂_map_right_iff, List.forall₂_same]
      intro root _
      exact ⟨reported_nodup trouble disk wellFormed root,
        mem_reported_iff disk trouble wellFormed root⟩

/-- A disk with one visible and one hidden file. -/
def pairDisk : Disk where
  top := .entry "seen" (.file ByteArray.empty) (.entry ".kept" (.file ByteArray.empty) .empty)
  current := []

/-- No trouble at all. -/
def noTrouble : Trouble := ⟨fun _ => none, fun _ => none⟩

theorem pairDisk_wellFormed : pairDisk.top.WellFormed := by decide

/-- The top folder of the disk is listed. -/
theorem pairDisk_list : pairDisk.list ⟨"/"⟩ = .ok [⟨"/seen"⟩, ⟨"/.kept"⟩] := by
  rw [Disk.list, Files.nodeOf_top pairDisk ⟨"/"⟩ (by decide)]
  rfl

/-- Its visible entry is a file. -/
theorem pairDisk_kindOf : pairDisk.kindOf ⟨"/seen"⟩ = .ok .file := by
  have leads : pairDisk.placeOf false ⟨"/seen"⟩ = .ok ["seen"] := by
    rw [Disk.placeOf, show Files.stepsOf "/seen" = [.into "seen"] by decide,
      show Path.isAbsolute ⟨"/seen"⟩ = true by decide]
    simp +decide [Files.walkSteps, Folder.node?, Folder.get?, pairDisk]
  simp only [Disk.kindOf, Disk.nodeOf, leads]
  rfl

/-- What happens in a walk of the disk with one visible and one hidden file whose root is
listed a number of times, when the oldest operation ends and the walk goes on in turn. -/
def pairRounds (times : Nat) : List Happening :=
  (List.replicate (2 * times) [.ends pairDisk.view 0, .goesOn]).flatten ++ [.goesOn]

theorem pairRounds_sees (times : Nat) :
    ∀ happening ∈ pairRounds times, happening.Sees (pairDisk.viewWith noTrouble) := by
  intro happening member
  simp only [pairRounds, List.mem_append, List.mem_flatten,
    List.mem_replicate, List.mem_singleton] at member
  rcases member with ⟨round, ⟨-, rfl⟩, within⟩ | rfl
  · rcases List.mem_cons.mp within with rfl | within
    · rfl
    · obtain rfl := List.mem_singleton.mp within
      trivial
  · trivial

/-- The visible file is found once, or twice when the root is listed twice. -/
theorem pairRounds_answer :
    (run [⟨"/"⟩] (pairRounds 1)).answer = some [⟨"/seen"⟩] ∧
      (run [⟨"/"⟩, ⟨"/"⟩] (pairRounds 2)).answer = some [⟨"/seen"⟩, ⟨"/seen"⟩] := by
  have listing : pairDisk.view.list ⟨"/"⟩ = .ok [⟨"/seen"⟩, ⟨"/.kept"⟩] := pairDisk_list
  have kind : pairDisk.view.kindOf ⟨"/seen"⟩ = .ok .file := pairDisk_kindOf
  have visible : [⟨"/seen"⟩, ⟨"/.kept"⟩].filter (!Path.isHidden ·) = [⟨"/seen"⟩] := by decide
  simp [run, pairRounds, List.replicate, happen, start, complete, advance, Operation.perform, listing,
    kind, takeIn, issue, visible, Noted.quiet]

/-- Of the two files the visible one is found, and the walk takes four moments and the answer. -/
theorem finds_file_of_pair :
    moments noTrouble pairDisk [⟨"/"⟩] = 5 ∧
    ∃ parts : List (List Path), [(⟨"/seen"⟩ : Path)].Perm parts.flatten ∧
      List.Forall₂ (fun root part => part.Nodup ∧
        ∀ path, path ∈ part ↔ Found pairDisk noTrouble root path) [⟨"/"⟩] parts := by
  obtain ⟨view, same⟩ : ∃ view, view = pairDisk.viewWith noTrouble := ⟨_, rfl⟩
  have listing : view.list ⟨"/"⟩ = .ok [⟨"/seen"⟩, ⟨"/.kept"⟩] := same ▸ pairDisk_list
  have kind : view.kindOf ⟨"/seen"⟩ = .ok .file := same ▸ pairDisk_kindOf
  have visible : [⟨"/seen"⟩, ⟨"/.kept"⟩].filter (!Path.isHidden ·) = [⟨"/seen"⟩] := by decide
  have answers : (run [⟨"/"⟩] [.ends view 0, .goesOn, .ends view 0, .goesOn, .goesOn]).answer =
      some [⟨"/seen"⟩] := by
    simp [run, happen, start, complete, advance, Operation.perform, listing, kind, takeIn, issue,
      visible, Noted.quiet]
  have brisk : Brisk [⟨"/"⟩]
      ([] ++ [.ends view 0] ++ [.goesOn] ++ [.ends view 0] ++ [.goesOn] ++ [.goesOn]) := by
    have fresh : Brisk [⟨"/"⟩] [] := fun before happening after split => by simp at split
    simp only [brisk_snoc, fresh, true_and]
    simp [run, happen, start, complete, advance, Operation.perform, listing, kind, takeIn, issue,
      visible, Noted.quiet]
  obtain ⟨spent, -, found⟩ := finds_files_of_roots noTrouble pairDisk pairDisk_wellFormed [⟨"/"⟩]
    [.ends view 0, .goesOn, .ends view 0, .goesOn, .goesOn] (by simp [Happening.Sees, same])
  exact ⟨((spent brisk).2.mp (by simp [answers])).symm, (found _ answers).2.2.2.2⟩

/-- A name that starts with a dot and goes on with a byte that no text has. -/
def strayName : Bytes := [Path.dot, 0xFF]

/-- A disk with one file, which has that name. -/
def strayDisk : Disk where
  top := .entry strayName (.file ByteArray.empty) .empty
  current := []

/-- The file is not hidden, though its name starts with a dot: the name is no text. -/
theorem strayName_visible : isHiddenName strayName = false := by
  rw [Bool.eq_false_iff, ne_eq, Files.isHiddenName_iff]
  rintro ⟨⟨text, same⟩, -⟩
  have read : Text.ofBytes? strayName = none := by decide +kernel
  simp [same] at read

/-- A walk of the disk finds the file, and so a name below its root that starts with a dot. -/
theorem dotted_file_found :
    strayDisk.top.WellFormed ∧ strayName.head? = some Path.dot ∧
      (run [⟨"/"⟩] [.ends (strayDisk.viewWith noTrouble) 0, .goesOn,
        .ends (strayDisk.viewWith noTrouble) 0, .goesOn, .goesOn]).answer =
          some [Path.child ⟨"/"⟩ strayName] := by
  have wellFormed : strayDisk.top.WellFormed := by decide
  have top := Files.nodeOf_top strayDisk ⟨"/"⟩ (by decide)
  obtain ⟨valid, file⟩ :=
    entries_stand strayDisk wellFormed ⟨"/"⟩ _ top strayName _ (List.mem_singleton_self _)
  have listing : (strayDisk.viewWith noTrouble).list ⟨"/"⟩ = .ok [Path.child ⟨"/"⟩ strayName] := by
    simp only [Disk.viewWith, noTrouble, Disk.list, top]
    rfl
  have kind : (strayDisk.viewWith noTrouble).kindOf (Path.child ⟨"/"⟩ strayName) = .ok .file := by
    simp only [Disk.viewWith, noTrouble, Disk.kindOf, file]
  have visible : (Path.child ⟨"/"⟩ strayName).isHidden = false := by
    rw [Files.isHidden_child _ _ valid, strayName_visible]
  refine ⟨wellFormed, rfl, ?_⟩
  simp [run, happen, start, complete, advance, Operation.perform, listing, kind, takeIn, issue,
    visible, Noted.quiet]

end BuildWatch.Walk
