import BuildWatch.Proofs.Files.Entries
import BuildWatch.Proofs.Walk.Ledger

/-!
# What a walk visits

A walk of a tree that does not change is decided before it starts: which operations it
issues can be read off the tree. Below an operation these are the operations that its own
result makes the walk issue, and those below them; the list ends because the tree does.

Links do not count here. One that leads to a folder is no folder of the tree, so it is
inspected and not entered, and a ring of links has no part in the order of the tree.

Besides what the tree itself refuses, any folder may fail to be listed and any entry to be
inspected.
-/

namespace BuildWatch

/-- The folders that fail to be listed and the entries that fail to be inspected, with the
causes. -/
structure Trouble where
  listing? : Path → Option Files.Fault
  inspecting? : Path → Option Files.Fault

/-- What a walk sees of a disk with some trouble. -/
def Files.Disk.viewWith (disk : Files.Disk) (trouble : Trouble) : View where
  list path :=
    match trouble.listing? path with
    | some fault => .error fault
    | none => disk.list path
  kindOf path :=
    match trouble.inspecting? path with
    | some fault => .error fault
    | none => disk.kindOf path

namespace Walk

open Files (Disk Folder Node)

mutual

/-- The operations of a walk for an entry and below it. -/
def nodeVisits (trouble : Trouble) (path : Path) : Node → List Operation
  | .file _ => [.inspect path]
  | .link _ => [.inspect path]
  | .pipe => [.inspect path]
  | .folder entries =>
    .inspect path ::
      if (trouble.inspecting? path).isSome then []
      else
        .list path ::
          if (trouble.listing? path).isSome then [] else entryVisits trouble path entries

/-- The operations of a walk for the entries of a folder and below them. -/
def entryVisits (trouble : Trouble) (path : Path) : Folder → List Operation
  | .empty => []
  | .entry name node rest =>
    (if isHiddenName name then [] else nodeVisits trouble (path.child name) node) ++
      entryVisits trouble path rest

end

/-- An operation of a walk and all operations below it. -/
def visits (disk : Disk) (trouble : Trouble) : Operation → List Operation
  | .list folder =>
    .list folder ::
      match trouble.listing? folder, disk.nodeOf true folder with
      | none, .ok (.folder entries) => entryVisits trouble folder entries
      | _, _ => []
  | .inspect entry =>
    match disk.nodeOf false entry with
    | .ok node => nodeVisits trouble entry node
    | .error _ => [.inspect entry]

variable (disk : Disk) (trouble : Trouble)

/-- What is visited below the entries of a folder is what is visited below the operations
that are issued for them, if each entry is found under its path. -/
theorem entryVisits_eq (path : Path) (entries : Folder)
    (stand : ∀ name node, (name, node) ∈ entries.toList →
      Files.IsEntryName name ∧ disk.nodeOf false (path.child name) = .ok node) :
    entryVisits trouble path entries =
      ((((entries.names.map path.child).filter (!Path.isHidden ·)).map
        Operation.inspect)).flatMap (visits disk trouble) := by
  induction entries using Files.Folder.toList.induct with
  | case1 => simp [entryVisits, Folder.names, Folder.toList]
  | case2 name node rest inductionHypothesis =>
    obtain ⟨valid, found⟩ := stand name node (by simp [Folder.toList])
    have others := inductionHypothesis fun other entry member =>
      stand other entry (by simp [Folder.toList, member])
    have hidden := Files.isHidden_child path name valid
    rw [entryVisits, others]
    cases shown : isHiddenName name with
    | true => simp [Folder.names, Folder.toList, hidden, shown]
    | false => simp [Folder.names, Folder.toList, hidden, shown, visits, found]

/-- The entries of a folder that a path leads to are found under that path. -/
theorem entries_stand (wellFormed : disk.top.WellFormed) (path : Path) (entries : Folder)
    (folder : disk.nodeOf true path = .ok (.folder entries)) (name : Bytes) (node : Node)
    (member : (name, node) ∈ entries.toList) :
    Files.IsEntryName name ∧ disk.nodeOf false (path.child name) = .ok node := by
  obtain ⟨place, leads, stands⟩ := Files.nodeOf_ok disk true path _ folder
  have formed := Files.node?_wellFormed disk.top place _ wellFormed stands
  obtain ⟨valid, found, -⟩ := Files.entry_of_mem entries formed name node member
  exact ⟨valid, Files.nodeOf_child disk path entries name node folder valid found⟩

/-- A listing makes a walk inspect the visible entries, if it succeeds. -/
theorem issues_list (folder : Path) :
    ((Operation.list folder).perform (disk.viewWith trouble)).issues =
      match trouble.listing? folder, disk.nodeOf true folder with
      | none, .ok (.folder entries) =>
        ((entries.names.map folder.child).filter (!Path.isHidden ·)).map .inspect
      | _, _ => [] := by
  cases refused : trouble.listing? folder with
  | some fault => simp [Operation.perform, Disk.viewWith, refused, Result.issues]
  | none =>
    cases leads : disk.nodeOf true folder with
    | error fault => simp [Operation.perform, Disk.viewWith, Disk.list, refused, leads, Result.issues]
    | ok node =>
      cases node <;>
        simp [Operation.perform, Disk.viewWith, Disk.list, refused, leads, Result.issues]

/-- If an inspection succeeds, a folder of the tree is listed next, and a regular file of
the tree or a link that leads to one is reported. -/
theorem inspect_reports (entry : Path) :
    ((Operation.inspect entry).perform (disk.viewWith trouble)).issues =
        (match trouble.inspecting? entry, disk.nodeOf false entry with
          | none, .ok (.folder _) => [.list entry]
          | _, _ => []) ∧
      ((Operation.inspect entry).perform (disk.viewWith trouble)).files =
        match trouble.inspecting? entry, disk.nodeOf false entry, disk.nodeOf true entry with
        | none, .ok (.file _), _ => [entry]
        | none, .ok (.link _), .ok (.file _) => [entry]
        | _, _, _ => [] := by
  cases refused : trouble.inspecting? entry with
  | some fault => simp [Operation.perform, Disk.viewWith, refused, Result.issues, Result.files]
  | none =>
    cases leads : disk.nodeOf false entry with
    | error fault =>
      simp [Operation.perform, Disk.viewWith, Disk.kindOf, refused, leads, Result.issues, Result.files]
    | ok node =>
      cases node with
      | file content | pipe | folder entries =>
        simp [Operation.perform, Disk.viewWith, Disk.kindOf, refused, leads, Result.issues,
          Result.files]
      | link target =>
        cases follows : disk.nodeOf true entry with
        | error fault =>
          simp [Operation.perform, Disk.viewWith, Disk.kindOf, refused, leads, follows,
            Result.issues, Result.files]
        | ok node =>
          cases node <;>
            simp [Operation.perform, Disk.viewWith, Disk.kindOf, refused, leads, follows,
              Result.issues, Result.files]

/-- A listing reports no files. -/
theorem list_reports (view : View) (folder : Path) :
    ((Operation.list folder).perform view).files = [] := by
  cases listed : view.list folder <;> simp [Operation.perform, listed, Result.files]

/-- Below an operation a walk visits what the operation's result makes it visit. -/
theorem visits_eq (wellFormed : disk.top.WellFormed) (operation : Operation) :
    visits disk trouble operation =
      operation ::
        (operation.perform (disk.viewWith trouble)).issues.flatMap (visits disk trouble) := by
  cases operation with
  | list folder =>
    rw [issues_list, visits]
    split
    · rename_i entries accepted leads
      rw [entryVisits_eq disk trouble folder entries
        (entries_stand disk wellFormed folder entries leads)]
    · rfl
  | inspect entry =>
    rw [(inspect_reports disk trouble entry).1, visits]
    cases leads : disk.nodeOf false entry with
    | error fault => simp
    | ok node =>
      cases node with
      | file content | link target | pipe => simp [nodeVisits]
      | folder entries =>
        have follows := Files.nodeOf_follow disk entry _ leads (by simp)
        cases refused : trouble.inspecting? entry with
        | some fault => simp [nodeVisits, refused]
        | none =>
          cases listed : trouble.listing? entry <;> simp [nodeVisits, refused, visits, listed, follows]

/-- The files that the operations of a list report. -/
def reported (operations : List Operation) : List Path :=
  operations.flatMap fun operation => (operation.perform (disk.viewWith trouble)).files

/-- While the tree does not change, operations lead to the files that are reported below
them, and to no others. -/
theorem yields_visits (wellFormed : disk.top.WellFormed) (operations : List Operation)
    (files : Multiset Path)
    (yields : Yields (fun operation result => result = operation.perform (disk.viewWith trouble))
      operations files) :
    files = reported disk trouble (operations.flatMap (visits disk trouble)) := by
  induction yields with
  | nothing => rfl
  | operation operation result others below aside report inner outer innerHypothesis outerHypothesis =>
    subst report innerHypothesis outerHypothesis
    rw [List.flatMap_cons, visits_eq disk trouble wellFormed operation]
    simp only [reported, List.cons_append, List.flatMap_cons, List.flatMap_append,
      ← Multiset.coe_add, add_assoc]

end Walk
end BuildWatch
