import BuildWatch.Proofs.Walk.Visits
import Mathlib.Data.List.Nodup

/-!
# Which files a root holds

The files that a walk is to find are said here without a walk: a folder is entered when it
is the root itself or a folder with a visible name in an entered one, and a file is found
when it stands in an entered folder under a visible name. The root may be a link to its
folder, and its own name is not looked at; below it only folders of the tree are entered.

The operations of a walk of a root are said in the same way: the root is listed, what is seen is
inspected, and what is found to be a folder of the tree is listed. These are what a walk visits
below the root, and their results report the files that are found there, and nothing else.
-/

namespace BuildWatch.Walk

open Files (Disk Folder Node)

/-- A folder that a walk of a root enters, under its path and with its entries: the root,
and the folders of the tree in entered ones. None has trouble to be listed, and but for
the root none is hidden or has trouble to be inspected. -/
inductive Entered (disk : Disk) (trouble : Trouble) (root : Path) : Path → Folder → Prop
  | top (entries : Folder) (leads : disk.nodeOf true root = .ok (.folder entries))
      (listed : trouble.listing? root = none) : Entered disk trouble root root entries
  | within (folder : Path) (entries inner : Folder) (name : Bytes)
      (above : Entered disk trouble root folder entries)
      (holds : entries.get? name = some (.folder inner)) (visible : isHiddenName name = false)
      (inspected : trouble.inspecting? (folder.child name) = none)
      (listed : trouble.listing? (folder.child name) = none) :
      Entered disk trouble root (folder.child name) inner

/-- An entry of an entered folder that is not hidden, under its path. -/
inductive Seen (disk : Disk) (trouble : Trouble) (root : Path) : Path → Node → Prop
  | entry (folder : Path) (entries : Folder) (name : Bytes) (node : Node)
      (above : Entered disk trouble root folder entries) (holds : entries.get? name = some node)
      (visible : isHiddenName name = false) : Seen disk trouble root (folder.child name) node

/-- An operation that a walk of a root makes: the root is listed, whatever it is, each seen entry is
inspected, and one that is found to be a folder of the tree is listed. -/
inductive Asked (disk : Disk) (trouble : Trouble) (root : Path) : Operation → Prop
  | root : Asked disk trouble root (.list root)
  | entry (path : Path) (node : Node) (seen : Seen disk trouble root path node) :
      Asked disk trouble root (.inspect path)
  | folder (path : Path) (entries : Folder) (seen : Seen disk trouble root path (.folder entries))
      (inspected : trouble.inspecting? path = none) : Asked disk trouble root (.list path)

/-- A file that a walk of a root finds: a regular file or a link that leads to one, seen in
an entered folder and without trouble to be inspected. -/
inductive Found (disk : Disk) (trouble : Trouble) (root path : Path) : Prop
  | file (content : ByteArray) (seen : Seen disk trouble root path (.file content))
      (inspected : trouble.inspecting? path = none)
  | link (target : Bytes) (content : ByteArray) (seen : Seen disk trouble root path (.link target))
      (inspected : trouble.inspecting? path = none)
      (leads : disk.nodeOf true path = .ok (.file content))

variable (disk : Disk) (trouble : Trouble)

/-- The path of an entered folder leads to it. -/
theorem Entered.leads (wellFormed : disk.top.WellFormed) (root folder : Path) (entries : Folder)
    (entered : Entered disk trouble root folder entries) :
    disk.nodeOf true folder = .ok (.folder entries) := by
  induction entered with
  | top entries leads listed => exact leads
  | within folder entries inner name above holds visible inspected listed inductionHypothesis =>
    obtain ⟨-, found⟩ := entries_stand disk wellFormed folder entries inductionHypothesis name _
      (Files.mem_of_get? entries name _ holds)
    exact Files.nodeOf_follow disk _ _ found (by simp)

/-- What an entered folder holds has the name of an entry, and the path of the folder is written. -/
theorem Entered.named (wellFormed : disk.top.WellFormed) (root folder : Path) (entries : Folder)
    (entered : Entered disk trouble root folder entries) (name : Bytes) (node : Node)
    (holds : entries.get? name = some node) :
    Files.IsEntryName name ∧ folder.bytes.isEmpty = false := by
  have leads := entered.leads disk trouble wellFormed root folder entries
  obtain ⟨place, lead, -⟩ := Files.nodeOf_ok disk true folder _ leads
  exact ⟨(entries_stand disk wellFormed folder entries leads name node
    (Files.mem_of_get? entries name node holds)).1, (Files.placeOf_ok disk true folder place lead).1⟩

/-- The path of a seen entry leads to it, as long as a link is not followed. -/
theorem Seen.leads (wellFormed : disk.top.WellFormed) (root path : Path) (node : Node)
    (seen : Seen disk trouble root path node) : disk.nodeOf false path = .ok node := by
  obtain ⟨folder, entries, name, node, above, holds, visible⟩ := seen
  have folderLeads := above.leads disk trouble wellFormed root folder entries
  exact (entries_stand disk wellFormed folder entries folderLeads name node
    (Files.mem_of_get? entries name node holds)).2

/-- What is visited for an entry is visited for its folder. -/
theorem nodeVisits_subset (path : Path) (entries : Folder) (name : Bytes) (node : Node)
    (holds : entries.get? name = some node) (visible : isHiddenName name = false) :
    ∀ operation ∈ nodeVisits trouble (path.child name) node,
      operation ∈ entryVisits trouble path entries := by
  intro operation visited
  induction entries using Files.Folder.toList.induct with
  | case1 => simp [Folder.get?] at holds
  | case2 first other rest inductionHypothesis =>
    rw [entryVisits, List.mem_append]
    by_cases same : first = name
    · obtain rfl : other = node := by simpa [Folder.get?, same] using holds
      left
      simpa [same, visible] using visited
    · right
      exact inductionHypothesis (by simpa [Folder.get?, same] using holds)

/-- What is visited for the entries of an entered folder is visited for the root. -/
theorem entryVisits_subset (root folder : Path) (entries : Folder)
    (entered : Entered disk trouble root folder entries) :
    ∀ operation ∈ entryVisits trouble folder entries,
      operation ∈ visits disk trouble (.list root) := by
  intro operation visited
  induction entered with
  | top entries leads listed => simp [visits, leads, listed, visited]
  | within folder entries inner name above holds visible inspected listed inductionHypothesis =>
    apply inductionHypothesis
    apply nodeVisits_subset trouble folder entries name _ holds visible
    simp [nodeVisits, inspected, listed, visited]

/-- What is visited for a seen entry is visited for the root. -/
theorem Seen.visits (root path : Path) (node : Node) (seen : Seen disk trouble root path node) :
    ∀ operation ∈ nodeVisits trouble path node, operation ∈ visits disk trouble (.list root) := by
  obtain ⟨folder, entries, name, node, above, holds, visible⟩ := seen
  exact fun operation visited => entryVisits_subset disk trouble root folder entries above operation
    (nodeVisits_subset trouble folder entries name node holds visible operation visited)

mutual

/-- What is visited for a seen entry and below it is asked. -/
theorem nodeVisits_asked (root folder : Path) (entries : Folder) (name : Bytes) (node : Node)
    (above : Entered disk trouble root folder entries) (holds : entries.get? name = some node)
    (visible : isHiddenName name = false) (formed : node.WellFormed) (operation : Operation)
    (visited : operation ∈ nodeVisits trouble (folder.child name) node) :
    Asked disk trouble root operation := by
  have seen := Seen.entry folder entries name node above holds visible
  match node with
  | .file content | .link target | .pipe =>
    obtain rfl : operation = .inspect (folder.child name) := by simpa [nodeVisits] using visited
    exact Asked.entry _ _ seen
  | .folder inner =>
    rw [nodeVisits, List.mem_cons] at visited
    rcases visited with rfl | below
    · exact Asked.entry _ _ seen
    · cases inspected : trouble.inspecting? (folder.child name) with
      | some fault => simp [inspected] at below
      | none =>
        rw [inspected, Option.isSome_none, if_neg Bool.false_ne_true, List.mem_cons] at below
        rcases below with rfl | within
        · exact Asked.folder _ inner seen inspected
        · cases listed : trouble.listing? (folder.child name) with
          | some fault => simp [listed] at within
          | none =>
            have entered := Entered.within folder entries inner name above holds visible inspected listed
            refine entryVisits_asked root _ inner inner entered ?_ formed operation ?_
            · exact fun other node member => (Files.entry_of_mem inner formed other node member).2.1
            · simpa [listed] using within

/-- What is visited for some entries of an entered folder and below them is asked. -/
theorem entryVisits_asked (root folder : Path) (entries part : Folder)
    (above : Entered disk trouble root folder entries)
    (hold : ∀ name node, (name, node) ∈ part.toList → entries.get? name = some node)
    (formed : part.WellFormed) (operation : Operation)
    (visited : operation ∈ entryVisits trouble folder part) :
    Asked disk trouble root operation := by
  match part with
  | .empty => simp [entryVisits] at visited
  | .entry name node rest =>
    obtain ⟨-, -, nodeFormed, restFormed⟩ := formed
    rw [entryVisits, List.mem_append] at visited
    rcases visited with own | others
    · cases visible : isHiddenName name with
      | true => simp [visible] at own
      | false =>
        exact nodeVisits_asked root folder entries name node above
          (hold name node (by simp [Folder.toList])) visible nodeFormed operation
          (by simpa [visible] using own)
    · exact entryVisits_asked root folder entries rest above
        (fun other entry member => hold other entry (by simp [Folder.toList, member])) restFormed
        operation others

end

/-- What is visited below a root is what is asked there. -/
theorem mem_visits_iff (wellFormed : disk.top.WellFormed) (root : Path) (operation : Operation) :
    operation ∈ visits disk trouble (.list root) ↔ Asked disk trouble root operation := by
  constructor
  · intro visited
    rw [visits, List.mem_cons] at visited
    rcases visited with rfl | below
    · exact Asked.root
    · split at below
      · rename_i entries listed leads
        obtain ⟨place, -, stands⟩ := Files.nodeOf_ok disk true root _ leads
        have formed := Files.node?_wellFormed disk.top place _ wellFormed stands
        exact entryVisits_asked disk trouble root root entries entries
          (Entered.top entries leads listed)
          (fun name node member => (Files.entry_of_mem entries formed name node member).2.1)
          formed operation below
      · simp at below
  · rintro (_ | ⟨path, node, seen⟩ | ⟨path, entries, seen, inspected⟩)
    · exact List.mem_cons_self
    · refine seen.visits disk trouble root path node _ ?_
      cases node <;> simp [nodeVisits]
    · exact seen.visits disk trouble root path _ _ (by simp [nodeVisits, inspected])

/-- Only the inspection of a path reports it. -/
theorem reports_own (view : View) (operation : Operation) (path : Path)
    (reports : path ∈ (operation.perform view).files) : operation = .inspect path := by
  cases operation with
  | list folder => simp [list_reports view folder] at reports
  | inspect entry =>
    cases inspected : view.kindOf entry with
    | error fault => simp [Operation.perform, inspected, Result.files] at reports
    | ok kind => cases kind <;> simp_all [Operation.perform, Result.files]

/-- What is visited below a root reports the files that are found there, and no others. -/
theorem mem_reported_iff (wellFormed : disk.top.WellFormed) (root path : Path) :
    path ∈ reported disk trouble (visits disk trouble (.list root)) ↔
      Found disk trouble root path := by
  have reportsIff : path ∈ reported disk trouble (visits disk trouble (.list root)) ↔
      .inspect path ∈ visits disk trouble (.list root) ∧
        path ∈ ((Operation.inspect path).perform (disk.viewWith trouble)).files := by
    rw [reported, List.mem_flatMap]
    constructor
    · rintro ⟨operation, visited, reports⟩
      obtain rfl := reports_own _ operation path reports
      exact ⟨visited, reports⟩
    · rintro ⟨visited, reports⟩
      exact ⟨_, visited, reports⟩
  rw [reportsIff, mem_visits_iff disk trouble wellFormed, (inspect_reports disk trouble path).2]
  constructor
  · rintro ⟨asked, reports⟩
    obtain ⟨node, seen⟩ : ∃ node, Seen disk trouble root path node := by
      cases asked with
      | entry _ node seen => exact ⟨node, seen⟩
    have leads := seen.leads disk trouble wellFormed root path node
    rw [leads] at reports
    split at reports
    · rename_i content inspected same
      obtain rfl := Except.ok.inj same
      exact Found.file content seen inspected
    · rename_i target content inspected same follows
      obtain rfl := Except.ok.inj same
      exact Found.link target content seen inspected follows
    · simp at reports
  · rintro (⟨content, seen, inspected⟩ | ⟨target, content, seen, inspected, follows⟩)
    · refine ⟨Asked.entry _ _ seen, ?_⟩
      simp [inspected, seen.leads disk trouble wellFormed root path _]
    · refine ⟨Asked.entry _ _ seen, ?_⟩
      simp [inspected, follows, seen.leads disk trouble wellFormed root path _]

end BuildWatch.Walk
