import BuildWatch.Proofs.Walk.Coverage

/-!
# The count of a walk

A journal is kept beside a walk. It notes which operations the walk issued, which of them ended
and with which results, and which results the walk took in. The count of the walk is that of the
issued operations whose result it did not take in, at every moment, and so the walk goes on
exactly as long as there is one.

Each result may make a walk issue more operations. While the tree does not change, the operations
that ended and those that the open ones lead to are the same at every moment, up to their order.
They are those of the roots, so a walk issues the same operations in every order, and none
besides. Links take no part in this: one that leads back to a folder is inspected and not entered.
-/

namespace BuildWatch.Walk

open Files (Disk)

/-- A walk with its journal: the operations that it issued, those that ended, each with its
result, in the order in which they ended, and the results that it took in. -/
structure Journal where
  walk : Walk
  issued : List Operation
  ended : List (Operation × Result)
  received : List Result

namespace Journal

/-- A new walk has issued what runs, and nothing else is noted. -/
def start (roots : List Path) : Journal where
  walk := Walk.start roots
  issued := (Walk.start roots).running
  ended := []
  received := []

/-- The journal after a happening. When the walk goes on, what runs then and did not before is
issued, and what waited before and does not then is taken in. -/
def follow (journal : Journal) : Happening → Journal
  | .ends view position =>
    { journal with
      walk := journal.walk.complete view position
      ended := journal.ended ++
        (journal.walk.running[position]?.map fun operation =>
          (operation, operation.perform view)).toList }
  | .goesOn =>
    let next := journal.walk.advance.value
    { journal with
      walk := next
      issued := journal.issued ++ next.running.drop journal.walk.running.length
      received := journal.received ++
        journal.walk.arrived.take (journal.walk.arrived.length - next.arrived.length) }

theorem follow_walk (journal : Journal) (happening : Happening) :
    (journal.follow happening).walk = journal.walk.happen happening := by
  cases happening <;> rfl

/-- What a happening makes of a journal: nothing new is noted; or a running operation ends, and
its result waits; or the oldest result is taken in, and what it names is issued. -/
inductive Notes (journal next : Journal) : Happening → Prop
  | nothing (happening : Happening) (issued : next.issued = journal.issued)
      (ended : next.ended = journal.ended) (received : next.received = journal.received)
      (running : next.walk.running = journal.walk.running)
      (arrived : next.walk.arrived = journal.walk.arrived) : Notes journal next happening
  | ended (view : View) (position : Nat) (operation : Operation)
      (runs : journal.walk.running.Perm (operation :: next.walk.running))
      (issued : next.issued = journal.issued)
      (ended : next.ended = journal.ended ++ [(operation, operation.perform view)])
      (received : next.received = journal.received)
      (arrived : next.walk.arrived = journal.walk.arrived ++ [operation.perform view]) :
      Notes journal next (.ends view position)
  | received (result : Result) (oldest : journal.walk.arrived = result :: next.walk.arrived)
      (issued : next.issued = journal.issued ++ result.issues)
      (ended : next.ended = journal.ended)
      (received : next.received = journal.received ++ [result])
      (running : next.walk.running = journal.walk.running ++ result.issues) :
      Notes journal next .goesOn

/-- A happening notes one of these as long as the walk is not cancelled. -/
theorem follow_notes (journal : Journal) (happening : Happening)
    (live : journal.walk.cancelled = false) : Notes journal (journal.follow happening) happening := by
  cases happening with
  | ends view position =>
    by_cases inside : position < journal.walk.running.length
    · have perm := (List.getElem_cons_eraseIdx_perm inside).symm
      refine Notes.ended view position journal.walk.running[position] ?_ rfl ?_ rfl ?_ <;>
        simp [follow, complete, inside, live, perm]
    · refine Notes.nothing _ rfl ?_ rfl ?_ ?_ <;> simp [follow, complete, inside]
  | goesOn =>
    by_cases idle : journal.walk.ended = true ∨ journal.walk.outstanding = 0 ∨
        journal.walk.arrived = []
    · have still : journal.walk.advance.value.running = journal.walk.running ∧
          journal.walk.advance.value.arrived = journal.walk.arrived := by
        rw [advance, live, if_neg Bool.false_ne_true]
        split_ifs with ended settled
        · exact ⟨rfl, rfl⟩
        · exact ⟨rfl, rfl⟩
        · have empty := (idle.resolve_left ended).resolve_left settled
          simp [empty, Noted.quiet]
      refine Notes.nothing _ ?_ rfl ?_ still.1 still.2 <;> simp [follow, still]
    · obtain ⟨unended, counted, waits⟩ := by simpa only [not_or] using idle
      obtain ⟨result, rest, oldest⟩ := List.exists_cons_of_ne_nil waits
      have takes := advance_taken journal.walk result rest live (by simpa using unended) counted oldest
      refine Notes.received result ?_ ?_ rfl ?_ ?_ <;>
        simp [follow, takes, takeIn_value, issue, oldest]

end Journal

/-- The journal of a walk of some roots after some happenings. -/
def journal (roots : List Path) (happenings : List Happening) : Journal :=
  happenings.foldl Journal.follow (Journal.start roots)

theorem journal_snoc (roots : List Path) (happenings : List Happening) (happening : Happening) :
    journal roots (happenings ++ [happening]) = (journal roots happenings).follow happening := by
  simp [journal]

/-- The journal is kept beside the walk and does not change it. -/
@[simp]
theorem journal_walk (roots : List Path) (happenings : List Happening) :
    (journal roots happenings).walk = run roots happenings := by
  induction happenings using List.reverseRecOn with
  | nil => rfl
  | append_singleton before happening inductionHypothesis =>
    rw [journal_snoc, run_snoc, Journal.follow_walk, inductionHypothesis]

/-- A journal goes on by what each happening notes. -/
theorem journal_notes (roots : List Path) (happenings : List Happening) (happening : Happening) :
    (journal roots happenings).Notes (journal roots (happenings ++ [happening])) happening := by
  rw [journal_snoc]
  refine Journal.follow_notes _ happening ?_
  rw [journal_walk]
  exact (live_run roots happenings).kept

/-- The books of a walk: the roots and the entries that results name are asked about, every issued
operation runs or has ended, and the results of those that ended are taken in, in their order, or
wait for it. -/
structure Accounted (roots : List Path) (journal : Journal) : Prop where
  named : journal.issued = roots.map .list ++ journal.received.flatMap Result.issues
  placed : journal.issued.Perm (journal.ended.map Prod.fst ++ journal.walk.running)
  inTurn : journal.ended.map Prod.snd = journal.received ++ journal.walk.arrived

/-- What a happening notes keeps the books right. -/
theorem Accounted.notes {roots : List Path} {journal next : Journal} {happening : Happening}
    (accounted : Accounted roots journal) (notes : journal.Notes next happening) :
    Accounted roots next := by
  obtain ⟨named, placed, inTurn⟩ := accounted
  cases notes with
  | nothing _ issued ended received running arrived =>
    exact ⟨by rw [issued, received, named], by rwa [issued, ended, running],
      by rw [ended, received, arrived, inTurn]⟩
  | ended view position operation runs issued ended received arrived =>
    refine ⟨by rw [issued, received, named], ?_, ?_⟩
    · rw [issued, ended, List.map_append, List.append_assoc]
      exact placed.trans (runs.append_left _)
    · rw [ended, received, arrived, List.map_append, inTurn, List.append_assoc]
      rfl
  | received result oldest issued ended received running =>
    refine ⟨?_, ?_, ?_⟩
    · rw [issued, received, named, List.flatMap_append, List.flatMap_singleton, List.append_assoc]
    · rw [issued, ended, running, ← List.append_assoc]
      exact placed.append_right _
    · rw [ended, received, inTurn, oldest, List.append_assoc]
      rfl

/-- The books of a walk are right, however the files change while it goes on. -/
theorem accounted_journal (roots : List Path) (happenings : List Happening) :
    Accounted roots (journal roots happenings) := by
  induction happenings using List.reverseRecOn with
  | nil => exact ⟨by simp [journal, Journal.start, start], by simp [journal, Journal.start], rfl⟩
  | append_singleton before happening inductionHypothesis =>
    exact inductionHypothesis.notes (journal_notes roots before happening)

/-- A live walk counts its operations that run and its results that wait. -/
theorem Live.counted {walk : Walk} (live : Live walk) :
    walk.outstanding = walk.running.length + walk.arrived.length := by
  cases live.stage with
  | going _ _ _ balanced => exact balanced.counted
  | answered _ _ _ idle empty settled _ => simp [idle, empty, settled]
  | stopped cancelled _ => simp [live.kept] at cancelled

/-- The count of a walk and the results that it took in are as many as the operations that it
issued. -/
theorem Accounted.counted {roots : List Path} {journal : Journal}
    (accounted : Accounted roots journal) (live : Live journal.walk) :
    journal.received.length + journal.walk.outstanding = journal.issued.length := by
  have placed := accounted.placed.length_eq
  have inTurn := congrArg List.length accounted.inTurn
  have counted := live.counted
  simp only [List.length_append, List.length_map] at placed inTurn
  omega

variable (disk : Disk) (trouble : Trouble)

/-- While the tree does not change, what a happening notes keeps together the operations that ended
and those that the open ones lead to. -/
theorem Journal.Notes.ahead {journal next : Journal} {happening : Happening}
    (notes : journal.Notes next happening) (wellFormed : disk.top.WellFormed)
    (sees : happening.Sees (disk.viewWith trouble)) :
    (next.ended.map Prod.fst ++ next.walk.opened.flatMap (visits disk trouble)).Perm
      (journal.ended.map Prod.fst ++ journal.walk.opened.flatMap (visits disk trouble)) := by
  cases notes with
  | nothing _ _ ended _ running arrived =>
    rw [ended, opened, opened, running, arrived]
  | ended view position operation runs _ ended _ arrived =>
    obtain rfl : view = disk.viewWith trouble := sees
    have before := runs.flatMap_right (visits disk trouble)
    rw [List.flatMap_cons, visits_eq disk trouble wellFormed operation] at before
    rw [← Multiset.coe_eq_coe] at before ⊢
    simp only [ended, opened, arrived, List.map_append, List.map_cons, List.map_nil,
      List.flatMap_append, List.flatMap_singleton, List.cons_append, ← Multiset.coe_add,
      ← Multiset.cons_coe, ← Multiset.singleton_add, Multiset.coe_nil] at before ⊢
    rw [before]
    abel
  | received result oldest _ ended _ running =>
    rw [ended, opened, opened, running, oldest, List.flatMap_cons, List.append_assoc]

/-- At every moment of a walk of files that do not change, the operations that ended and those that
the open ones lead to are the operations of its roots. -/
theorem journal_ahead (wellFormed : disk.top.WellFormed) (roots : List Path)
    (happenings : List Happening)
    (sees : ∀ happening ∈ happenings, happening.Sees (disk.viewWith trouble)) :
    ((journal roots happenings).ended.map Prod.fst ++
        (run roots happenings).opened.flatMap (visits disk trouble)).Perm
      ((roots.map Operation.list).flatMap (visits disk trouble)) := by
  induction happenings using List.reverseRecOn with
  | nil => simp [journal, Journal.start, run, start, opened]
  | append_singleton before happening inductionHypothesis =>
    have notes := journal_notes roots before happening
    have onward := notes.ahead disk trouble wellFormed (sees happening (by simp))
    rw [journal_walk, journal_walk] at onward
    exact onward.trans (inductionHypothesis fun earlier member =>
      sees earlier (List.mem_append_left _ member))

/-- Operations are among what is visited for them and below them. -/
theorem sublist_visits (wellFormed : disk.top.WellFormed) (operations : List Operation) :
    operations.Sublist (operations.flatMap (visits disk trouble)) := by
  induction operations with
  | nil => exact List.Sublist.refl _
  | cons operation rest inductionHypothesis =>
    rw [List.flatMap_cons, visits_eq disk trouble wellFormed, List.cons_append]
    exact (inductionHypothesis.trans (List.sublist_append_right _ _)).cons_cons operation

section

variable (wellFormed : disk.top.WellFormed) (roots : List Path) (happenings : List Happening)
  (sees : ∀ happening ∈ happenings, happening.Sees (disk.viewWith trouble))

include wellFormed sees

/-- No operations are issued but those of the roots, and none of them too often. -/
theorem issued_among :
    (journal roots happenings).issued.Subperm
      ((roots.map Operation.list).flatMap (visits disk trouble)) := by
  have placed := (accounted_journal roots happenings).placed
  rw [journal_walk] at placed
  have open_ : (run roots happenings).running.Sublist
      ((run roots happenings).opened.flatMap (visits disk trouble)) := by
    rw [opened, List.flatMap_append]
    exact (sublist_visits disk trouble wellFormed _).trans (List.sublist_append_left _ _)
  have ahead := journal_ahead disk trouble wellFormed roots happenings sees
  exact placed.subperm.trans ((open_.append_left _).subperm.trans ahead.subperm)

/-- A walk that ended has nothing left to wait for, and has issued all operations of its roots. -/
theorem issued_all (ended : (run roots happenings).ended = true) :
    (run roots happenings).outstanding = 0 ∧ (run roots happenings).running = [] ∧
      (run roots happenings).arrived = [] ∧
      (journal roots happenings).issued.Perm
        ((roots.map Operation.list).flatMap (visits disk trouble)) := by
  have live := live_run roots happenings
  cases live.stage with
  | going _ unended => simp [ended] at unended
  | stopped cancelled => simp [live.kept] at cancelled
  | answered _ _ _ idle empty settled =>
    have placed := (accounted_journal roots happenings).placed
    rw [journal_walk] at placed
    refine ⟨settled, idle, empty, placed.trans ?_⟩
    simpa [opened, idle, empty] using journal_ahead disk trouble wellFormed roots happenings sees

end

/-- **The count of a walk is exact, and the walk ends.** The files do not change while it goes on,
any folders and entries may have trouble, links may lead anywhere, and operations end in any order.

At every moment the books are right, and the count is that of the issued operations whose result
was not taken in; so it is not zero when a result is taken in. For each root separately there are
operations that are asked there, each once: the root is listed, each visible entry of a listed
folder is inspected, and each entry that is found to be a folder of the tree is listed. At every
moment those that were issued are among them.

A walk that does not idle takes no more moments than two for each of these operations and one to
answer, and until it ended some happening changes it. Once it ended nothing is outstanding, nothing
runs or waits, and the operations that were issued are all of these, in some order.

Proof: at every moment, the operations that ended and those that the open ones lead to are all of
these. -/
theorem operations_counted_and_fixed (wellFormed : disk.top.WellFormed) (roots : List Path) :
    ∃ parts : List (List Operation),
      List.Forall₂ (fun root part => part.Nodup ∧
        ∀ operation, operation ∈ part ↔ Asked disk trouble root operation) roots parts ∧
      ∀ happenings : List Happening,
        (∀ happening ∈ happenings, happening.Sees (disk.viewWith trouble)) →
        (journal roots happenings).walk = run roots happenings ∧
        Accounted roots (journal roots happenings) ∧
        (journal roots happenings).received.length + (run roots happenings).outstanding =
          (journal roots happenings).issued.length ∧
        ((run roots happenings).arrived ≠ [] → 0 < (run roots happenings).outstanding) ∧
        (journal roots happenings).issued.Subperm parts.flatten ∧
        (Brisk roots happenings → happenings.length ≤ 2 * parts.flatten.length + 1) ∧
        ((run roots happenings).ended = false →
          ∃ happening : Happening, happening.Sees (disk.viewWith trouble) ∧
            (run roots happenings).happen happening ≠ run roots happenings) ∧
        ((run roots happenings).ended = true →
          (run roots happenings).outstanding = 0 ∧ (run roots happenings).running = [] ∧
          (run roots happenings).arrived = [] ∧
          (journal roots happenings).issued.Perm parts.flatten) := by
  refine ⟨roots.map fun root => visits disk trouble (.list root), ?_, fun happenings sees => ?_⟩
  · rw [List.forall₂_map_right_iff, List.forall₂_same]
    exact fun root _ => ⟨visits_nodup trouble disk wellFormed root,
      mem_visits_iff disk trouble wellFormed root⟩
  have all : (roots.map fun root => visits disk trouble (.list root)).flatten =
      (roots.map Operation.list).flatMap (visits disk trouble) := by
    rw [List.flatMap_map]
    rfl
  have live := live_run roots happenings
  have accounted := accounted_journal roots happenings
  have counted := accounted.counted (by rwa [journal_walk])
  rw [journal_walk] at counted
  rw [all]
  refine ⟨journal_walk roots happenings, accounted, counted, fun waits => ?_,
    issued_among disk trouble wellFormed roots happenings sees, fun brisk => ?_, fun unended => ?_,
    issued_all disk trouble wellFormed roots happenings sees⟩
  · have waiting := List.length_pos_of_ne_nil waits
    have both := live.counted
    omega
  · have spent := left_run trouble disk wellFormed roots happenings sees brisk
    rw [moments] at spent
    omega
  · cases live.stage with
    | going _ _ _ balanced => exact balanced_changes _ _ _ live.kept unended balanced
    | answered _ ended => simp [unended] at ended
    | stopped cancelled => simp [live.kept] at cancelled

/-- A disk with a link back to its top folder, and a file in a folder. -/
def ringDisk : Disk where
  top := .entry "back" (.link "/") (.entry "in" (.folder (.entry "a" (.file ByteArray.empty) .empty))
    .empty)
  current := []

theorem ringDisk_wellFormed : ringDisk.top.WellFormed := by decide

/-- Where paths of the disk lead. -/
theorem ringDisk_placeOf :
    ringDisk.placeOf true ⟨"/"⟩ = .ok [] ∧ ringDisk.placeOf true ⟨"/back"⟩ = .ok [] ∧
      ringDisk.placeOf false ⟨"/back"⟩ = .ok ["back"] ∧
      (∀ follow, ringDisk.placeOf follow ⟨"/in"⟩ = .ok ["in"]) ∧
      ringDisk.placeOf false ⟨"/in/a"⟩ = .ok ["in", "a"] := by
  have top : Files.stepsOf "/" = [.stay] := by decide
  simp only [Disk.placeOf, top, show Files.stepsOf "/back" = [.into "back"] by decide,
    show Files.stepsOf "/in" = [.into "in"] by decide,
    show Files.stepsOf "/in/a" = [.into "in", .into "a"] by decide]
  simp +decide [Files.walkSteps, Files.Folder.node?, Files.Folder.get?, ringDisk, top,
    Files.linkLimit]

/-- A walk of the disk from its top, whose operations end in the order in which they were issued. -/
def oldestFirst (view : View) : List Happening :=
  [.ends view 0, .goesOn, .ends view 0, .goesOn, .ends view 0, .goesOn, .ends view 0, .goesOn,
    .ends view 0, .goesOn, .goesOn]

/-- The same walk, with the link inspected last of all. -/
def linkLast (view : View) : List Happening :=
  [.ends view 0, .goesOn, .ends view 1, .goesOn, .ends view 1, .goesOn, .ends view 1, .goesOn,
    .ends view 0, .goesOn, .goesOn]

/-- In both orders the walk issues the same five operations, and does not follow the link. -/
theorem ring_walked_alike :
    ringDisk.top.WellFormed ∧
    (journal [⟨"/"⟩] (oldestFirst (ringDisk.viewWith noTrouble))).issued =
      [.list ⟨"/"⟩, .inspect ⟨"/back"⟩, .inspect ⟨"/in"⟩, .list ⟨"/in"⟩, .inspect ⟨"/in/a"⟩] ∧
    (journal [⟨"/"⟩] (linkLast (ringDisk.viewWith noTrouble))).issued.Perm
      (journal [⟨"/"⟩] (oldestFirst (ringDisk.viewWith noTrouble))).issued := by
  obtain ⟨parts, -, walked⟩ :=
    operations_counted_and_fixed ringDisk noTrouble ringDisk_wellFormed [⟨"/"⟩]
  obtain ⟨view, same⟩ : ∃ view, view = ringDisk.viewWith noTrouble := ⟨_, rfl⟩
  rw [← same] at walked ⊢
  obtain ⟨top, back, link, folder, file⟩ := ringDisk_placeOf
  have listing : view.list ⟨"/"⟩ = .ok [⟨"/back"⟩, ⟨"/in"⟩] := by
    rw [same]
    simp only [Disk.viewWith, noTrouble, Disk.list, Disk.nodeOf, top]
    rfl
  have inner : view.list ⟨"/in"⟩ = .ok [⟨"/in/a"⟩] := by
    rw [same]
    simp only [Disk.viewWith, noTrouble, Disk.list, Disk.nodeOf, folder]
    rfl
  have kinds : view.kindOf ⟨"/back"⟩ = .ok .other ∧ view.kindOf ⟨"/in"⟩ = .ok .folder ∧
      view.kindOf ⟨"/in/a"⟩ = .ok .file := by
    rw [same]
    simp only [Disk.viewWith, noTrouble, Disk.kindOf, Disk.nodeOf, back, link, folder, file]
    exact ⟨rfl, rfl, rfl⟩
  have visible : Path.isHidden ⟨"/back"⟩ = false ∧ Path.isHidden ⟨"/in"⟩ = false ∧
      Path.isHidden ⟨"/in/a"⟩ = false := by decide
  have ends : (run [⟨"/"⟩] (oldestFirst view)).ended = true ∧
      (run [⟨"/"⟩] (linkLast view)).ended = true := by
    simp [run, oldestFirst, linkLast, happen, start, complete, advance, Operation.perform, listing,
      inner, kinds, takeIn, issue, visible, Noted.quiet]
  obtain ⟨-, -, -, -, -, -, -, first⟩ := walked (oldestFirst view) (by simp [oldestFirst, Happening.Sees])
  obtain ⟨-, -, -, -, -, -, -, second⟩ := walked (linkLast view) (by simp [linkLast, Happening.Sees])
  obtain ⟨-, -, -, all⟩ := first ends.1
  obtain ⟨-, -, -, others⟩ := second ends.2
  refine ⟨ringDisk_wellFormed, ?_, others.trans all.symm⟩
  simp [journal, Journal.start, Journal.follow, oldestFirst, start, complete, advance,
    Operation.perform, listing, inner, kinds, takeIn, issue, visible, Noted.quiet]

end BuildWatch.Walk
