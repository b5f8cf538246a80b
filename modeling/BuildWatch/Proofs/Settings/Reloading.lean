import BuildWatch.Proofs.Walk.Naming
import Mathlib.Data.List.Induction
import Mathlib.Tactic.Tauto

/-!
# The fingerprint in force and the settings in force

Settings are read again only when the fingerprint of their file is another one than that in
force. The file whose fingerprint is taken is the one the project in force was loaded from. The
settings themselves are then looked for anew, from the current folder upwards, and another file
may be nearer by then. So a call may put settings in force that are those of one file together
with the fingerprint of another: it strays. From then on an edit of the settings in force that
makes them equal to the other file goes unnoticed.

Settings files come, change and go in any order between the calls. What a call does not put in
force it leaves alone, so the fingerprint in force is that of the settings in force unless the
last call that put any in force strayed.
-/

namespace BuildWatch

namespace Files

variable (disk : Disk)

/-- What a path leads to is also what its normal path leads to. -/
theorem nodeOf_normalize (wellFormed : disk.top.WellFormed) (here : Firm disk.top disk.current)
    (path : Path) (node : Node) (leads : disk.nodeOf true path = .ok node) :
    disk.nodeOf true (disk.normalize path) = .ok node := by
  obtain ⟨place, lead, stands⟩ := nodeOf_ok disk true path node leads
  obtain ⟨other, there, plain⟩ := placeOf_firm disk path place here lead
  obtain rfl : other = node := Option.some.inj (there.symm.trans stands)
  rw [normalize_ok disk path place lead]
  exact nodeOf_eq disk true _ place other ((placeOf_path disk wellFormed place other there).2 plain) stands

/-- A text is read from a file also under the normal path of that. -/
theorem readText_normalize (wellFormed : disk.top.WellFormed) (here : Firm disk.top disk.current)
    (path : Path) (text : String) (reads : disk.readText path = .ok text) :
    disk.readText (disk.normalize path) = .ok text := by
  cases leads : disk.nodeOf true path with
  | error fault => simp [Disk.readText, Disk.readBytes, leads] at reads
  | ok node =>
    rw [Disk.readText, Disk.readBytes, leads] at reads
    rw [Disk.readText, Disk.readBytes, nodeOf_normalize disk wellFormed here path node leads]
    exact reads

end Files

namespace Project

open Files (Disk)

variable (disk : Disk) (arguments : Arguments)

/-- The text that the settings of a project are read from, when a file with them is found. -/
def sourceText? : Option String :=
  (Settings.find? disk disk.currentPath arguments.config).bind fun path =>
    (disk.readText path).toOption

/-- The settings of a loaded project are what is read from its text, or the settings without a
file when none is found. -/
theorem load_parses (project : Project) (loaded : (load disk arguments).value = .ok project) :
    (∃ path text settings passed, Settings.find? disk disk.currentPath arguments.config = some path ∧
      disk.readText path = .ok text ∧ Settings.read text = .ok (settings, passed) ∧
      project = assemble disk arguments settings path) ∨
    Settings.find? disk disk.currentPath arguments.config = none ∧
      project = assemble disk arguments {} (disk.currentPath.join arguments.config) := by
  rw [load] at loaded
  split at loaded
  · rename_i path found
    simp only [Noted.andThen, readSettings] at loaded
    cases reads : disk.readText path with
    | error cause => simp [reads, Noted.quiet] at loaded
    | ok text =>
      cases parses : Settings.read text with
      | error fault => simp [reads, parses, Noted.quiet] at loaded
      | ok result =>
        simp only [reads, parses] at loaded
        exact Or.inl ⟨path, text, result.1, result.2, found, reads, parses,
          checked_kept _ project loaded⟩
  · rename_i unfound
    exact Or.inr ⟨unfound, checked_kept _ project loaded⟩

/-- A loaded project keeps the arguments it was loaded with. -/
theorem load_arguments (project : Project) (loaded : (load disk arguments).value = .ok project) :
    project.arguments = arguments := by
  obtain ⟨settings, path, rfl⟩ := load_assembled disk arguments project loaded
  rfl

/-- When a project is loaded from a file, the text of the file can be read under the path that
is kept of it. -/
theorem load_settingsPath (wellFormed : disk.top.WellFormed)
    (here : Files.Firm disk.top disk.current) (path : Path)
    (found : Settings.find? disk disk.currentPath arguments.config = some path) (project : Project)
    (loaded : (load disk arguments).value = .ok project) :
    ∃ text, sourceText? disk arguments = some text ∧
      disk.readText project.settingsPath = .ok text := by
  rcases load_parses disk arguments project loaded with
    ⟨other, text, settings, passed, same, reads, -, rfl⟩ | ⟨unfound, -⟩
  · refine ⟨text, ?_, Files.readText_normalize disk wellFormed here other text reads⟩
    rw [sourceText?, same, Option.bind_some, reads]
    rfl
  · simp [unfound] at found

end Project

namespace Current

open Files (Disk)

variable (disk : Disk) (current : Current)

/-- A call finds nothing new when the file has the fingerprint in force. -/
theorem reload_none_iff :
    (current.reload disk).value = .ok none ↔
      ∃ text, disk.readText current.project.settingsPath = .ok text ∧
        fingerprintOf text = current.fingerprint := by
  rw [reload]
  cases reads : disk.readText current.project.settingsPath with
  | error cause => simp [Noted.quiet]
  | ok text =>
    simp only [Except.ok.injEq, exists_eq_left']
    by_cases same : fingerprintOf text = current.fingerprint
    · simp [same, Noted.quiet]
    · simp only [same, if_false, Noted.andThen, iff_false]
      split <;> simp [Noted.quiet]

/-- A call puts in force what is loaded anew, with the fingerprint of the file it looked at. -/
theorem reload_some_iff (new : Current) :
    (current.reload disk).value = .ok (some new) ↔
      ∃ text, disk.readText current.project.settingsPath = .ok text ∧
        fingerprintOf text ≠ current.fingerprint ∧
        (Project.load disk current.project.arguments).value = .ok new.project ∧
        new.fingerprint = fingerprintOf text := by
  obtain ⟨project, fingerprint⟩ := new
  rw [reload]
  cases reads : disk.readText current.project.settingsPath with
  | error cause => simp [Noted.quiet]
  | ok text =>
    simp only [Except.ok.injEq, exists_eq_left']
    by_cases same : fingerprintOf text = current.fingerprint
    · simp [same, Noted.quiet]
    · cases loaded : (Project.load disk current.project.arguments).value with
      | error fault => simp [same, Noted.andThen, Noted.quiet, loaded]
      | ok other => simp [same, Noted.andThen, Noted.quiet, loaded, eq_comm]

end Current

/-- The settings in force while their files come, change and go: the disk as it was when they
were loaded, the text whose fingerprint was taken then, and the contents of all settings files
that were looked at so far. -/
structure Reloading where
  current : Current
  read : Files.Disk
  compared : Option String
  contents : List String

namespace Reloading

open Files (Disk Folder Node)
open Current (fingerprintOf)

/-- The contents of the settings files that a call may look at. -/
def looksAt (current : Current) (disk : Disk) : List String :=
  (disk.readText current.project.settingsPath).toOption.toList ++
    (Project.sourceText? disk current.project.arguments).toList

/-- Put a loaded project in force. -/
def start (disk : Disk) (project : Project) : Reloading where
  current := Current.start disk project
  read := disk
  compared := (disk.readText project.settingsPath).toOption
  contents := looksAt (Current.start disk project) disk

/-- Go on by one call that reads the settings again. -/
def follow (history : Reloading) (disk : Disk) : Reloading :=
  let contents := history.contents ++ looksAt history.current disk
  match (history.current.reload disk).value with
  | .ok (some current) =>
    { current := current
      read := disk
      compared := (disk.readText history.current.project.settingsPath).toOption
      contents := contents }
  | _ => { history with contents := contents }

/-- What comes of some calls, given the disk as each of them finds it. -/
def run (disk : Disk) (project : Project) (disks : List Disk) : Reloading :=
  disks.foldl follow (start disk project)

theorem run_snoc (disk : Disk) (project : Project) (disks : List Disk) (last : Disk) :
    run disk project (disks ++ [last]) = (run disk project disks).follow last := by
  simp only [run, List.foldl_append, List.foldl_cons, List.foldl_nil]

/-- The text that the settings in force were read from, if they were read from a file. -/
def parsed (history : Reloading) : Option String :=
  Project.sourceText? history.read history.current.project.arguments

/-- A call puts settings in force. -/
def Adopts (history : Reloading) (disk : Disk) : Prop :=
  ∃ new, (history.current.reload disk).value = .ok (some new)

/-- A call puts settings in force that are not read from the text whose fingerprint it takes. -/
def Strays (history : Reloading) (disk : Disk) : Prop :=
  history.Adopts disk ∧ Project.sourceText? disk history.current.project.arguments ≠
    (disk.readText history.current.project.settingsPath).toOption

/-- The last of some calls that put settings in force strayed. -/
inductive Strayed (disk : Disk) (project : Project) : List Disk → Prop
  | now (before : List Disk) (next : Disk) (strays : (run disk project before).Strays next) :
      Strayed disk project (before ++ [next])
  | still (before : List Disk) (next : Disk) (strayed : Strayed disk project before)
      (idle : ¬ (run disk project before).Adopts next) : Strayed disk project (before ++ [next])

theorem not_strayed_nil (disk : Disk) (project : Project) : ¬ Strayed disk project [] := by
  intro strayed
  generalize calls : ([] : List Disk) = disks at strayed
  cases strayed <;> simp at calls

/-- A call strays now, or it puts nothing in force and an earlier one strayed. -/
theorem strayed_snoc (disk : Disk) (project : Project) (before : List Disk) (next : Disk) :
    Strayed disk project (before ++ [next]) ↔
      (run disk project before).Strays next ∨
        Strayed disk project before ∧ ¬ (run disk project before).Adopts next := by
  constructor
  · intro strayed
    generalize calls : before ++ [next] = disks at strayed
    cases strayed with
    | now earlier last strays =>
      obtain ⟨rfl, same⟩ := List.append_inj' calls rfl
      exact Or.inl (List.singleton_inj.mp same ▸ strays)
    | still earlier last strayed idle =>
      obtain ⟨rfl, same⟩ := List.append_inj' calls rfl
      exact Or.inr ⟨strayed, List.singleton_inj.mp same ▸ idle⟩
  · rintro (strays | ⟨strayed, idle⟩)
    · exact Strayed.now before next strays
    · exact Strayed.still before next strayed idle

variable (history : Reloading)

/-- What a call puts in force. -/
theorem follow_adopts (disk : Disk) (new : Current)
    (adopted : (history.current.reload disk).value = .ok (some new)) :
    history.follow disk =
      { current := new
        read := disk
        compared := (disk.readText history.current.project.settingsPath).toOption
        contents := history.contents ++ looksAt history.current disk } := by
  simp only [follow, adopted]

/-- A call that puts nothing in force only looks at the files. -/
theorem follow_idle (disk : Disk) (idle : ¬ history.Adopts disk) :
    history.follow disk =
      { history with contents := history.contents ++ looksAt history.current disk } := by
  rw [follow]
  split
  · rename_i new adopted
    exact (idle ⟨new, adopted⟩).elim
  · rfl

theorem follow_contents (disk : Disk) :
    (history.follow disk).contents = history.contents ++ looksAt history.current disk := by
  rw [follow]
  split <;> rfl

/-- What was looked at by some calls was looked at also when more calls were made. -/
theorem contents_mono (disk : Disk) (project : Project) (before after : List Disk) :
    (run disk project before).contents ⊆ (run disk project (before ++ after)).contents := by
  induction after using List.reverseRecOn with
  | nil => simp
  | append_singleton after last inductionHypothesis =>
    rw [← List.append_assoc, run_snoc, follow_contents]
    exact List.Subset.trans inductionHypothesis (List.subset_append_left _ _)

/-- The settings in force were loaded with some arguments, the fingerprint in force is that of the
text that was compared, and both texts were looked at. -/
structure Sound (arguments : Arguments) (history : Reloading) : Prop where
  loaded : (Project.load history.read arguments).value = .ok history.current.project
  taken : ∃ text, history.compared = some text ∧ history.current.fingerprint = fingerprintOf text
  compared : ∀ text, history.compared = some text → text ∈ history.contents
  parsed : ∀ text, history.parsed = some text → text ∈ history.contents

variable {arguments : Arguments}

theorem Sound.arguments_kept (sound : Sound arguments history) :
    history.current.project.arguments = arguments :=
  Project.load_arguments history.read arguments _ sound.loaded

/-- The texts that a call may put in force are among those it looks at. -/
theorem mem_looksAt (current : Current) (disk : Disk) (text : String) :
    text ∈ looksAt current disk ↔
      (disk.readText current.project.settingsPath).toOption = some text ∨
        Project.sourceText? disk current.project.arguments = some text := by
  rw [looksAt, List.mem_append, Option.mem_toList, Option.mem_toList]

theorem sound_follow (disk : Disk) (sound : Sound arguments history) :
    Sound arguments (history.follow disk) := by
  by_cases adopts : history.Adopts disk
  · obtain ⟨new, adopted⟩ := adopts
    obtain ⟨text, reads, -, loaded, taken⟩ :=
      (Current.reload_some_iff disk history.current new).mp adopted
    rw [sound.arguments_kept] at loaded
    have kept := Project.load_arguments disk arguments new.project loaded
    rw [follow_adopts history disk new adopted]
    refine ⟨loaded, ⟨text, by rw [reads]; rfl, taken⟩, ?_, ?_⟩
    · intro other same
      exact List.mem_append_right _ ((mem_looksAt history.current disk other).mpr (Or.inl same))
    · intro other same
      rw [parsed, kept, ← sound.arguments_kept] at same
      exact List.mem_append_right _ ((mem_looksAt history.current disk other).mpr (Or.inr same))
  · rw [follow_idle history disk adopts]
    refine ⟨sound.loaded, sound.taken, ?_, ?_⟩
    · intro text same
      exact List.mem_append_left _ (sound.compared text same)
    · intro text same
      exact List.mem_append_left _ (sound.parsed text same)

section

variable (disk : Disk) (wellFormed : disk.top.WellFormed) (here : Files.Firm disk.top disk.current)
  (path : Path) (found : Settings.find? disk disk.currentPath arguments.config = some path)
  (project : Project) (loaded : (Project.load disk arguments).value = .ok project)

include wellFormed here found loaded

/-- A project that is put in force right after it was loaded from a file. -/
theorem sound_start :
    Sound arguments (start disk project) ∧
      (start disk project).parsed = (start disk project).compared := by
  obtain ⟨text, source, reads⟩ :=
    Project.load_settingsPath disk arguments wellFormed here path found project loaded
  have kept := Project.load_arguments disk arguments project loaded
  have parses : (start disk project).parsed = some text := by
    rw [parsed, start, Current.start, kept, source]
  have compares : (start disk project).compared = some text := by
    rw [start, reads]
    rfl
  have looked : (start disk project).contents = [text, text] := by
    rw [start, looksAt, Current.start, reads, kept, source]
    rfl
  refine ⟨⟨loaded, ⟨text, compares, ?_⟩, ?_, ?_⟩, parses.trans compares.symm⟩
  · simp only [start, Current.start, reads]
  · intro other same
    rw [looked, Option.some.inj (same.symm.trans compares)]
    exact List.mem_cons_self
  · intro other same
    rw [looked, Option.some.inj (same.symm.trans parses)]
    exact List.mem_cons_self

theorem sound_run (disks : List Disk) : Sound arguments (run disk project disks) := by
  induction disks using List.reverseRecOn with
  | nil => exact (sound_start disk wellFormed here path found project loaded).1
  | append_singleton before last inductionHypothesis =>
    rw [run_snoc]
    exact sound_follow _ last inductionHypothesis

end

/-- The settings in force part from the text that was compared when a call strays, and stay apart
as long as no call puts settings in force. -/
theorem apart_follow (disk : Disk) :
    (history.follow disk).parsed ≠ (history.follow disk).compared ↔
      history.Strays disk ∨ history.parsed ≠ history.compared ∧ ¬ history.Adopts disk := by
  by_cases adopts : history.Adopts disk
  · obtain ⟨new, adopted⟩ := adopts
    obtain ⟨text, -, -, loaded, -⟩ := (Current.reload_some_iff disk history.current new).mp adopted
    have kept := Project.load_arguments disk _ new.project loaded
    have adopts : history.Adopts disk := ⟨new, adopted⟩
    simp only [follow_adopts history disk new adopted, parsed, kept, Strays, adopts, true_and,
      not_true, and_false, or_false]
  · simp only [follow_idle history disk adopts, parsed, Strays, adopts, false_and, false_or,
      not_false_iff, and_true]

/-- When the settings were put in force with the text that is compared, they are apart from it later
exactly when the last call that put any in force strayed. -/
theorem apart_run_iff (disk : Disk) (project : Project)
    (together : (start disk project).parsed = (start disk project).compared) (disks : List Disk) :
    (run disk project disks).parsed ≠ (run disk project disks).compared ↔
      Strayed disk project disks := by
  induction disks using List.reverseRecOn with
  | nil =>
    constructor
    · intro apart
      exact (apart together).elim
    · intro strayed
      exact (not_strayed_nil disk project strayed).elim
  | append_singleton before last inductionHypothesis =>
    rw [run_snoc, apart_follow, inductionHypothesis, strayed_snoc]

/-- The settings in force are apart from the text that was compared exactly when the last call that
put any in force strayed. -/
theorem apart_iff_strayed (disk : Disk) (wellFormed : disk.top.WellFormed)
    (here : Files.Firm disk.top disk.current) (path : Path)
    (found : Settings.find? disk disk.currentPath arguments.config = some path) (project : Project)
    (loaded : (Project.load disk arguments).value = .ok project) (disks : List Disk) :
    (run disk project disks).parsed ≠ (run disk project disks).compared ↔
      Strayed disk project disks :=
  apart_run_iff disk project (sound_start disk wellFormed here path found project loaded).2 disks

/-- **The fingerprint in force is that of the settings in force unless a call strayed.** Let a
project be loaded from a file that was found and put in force, and let the settings be read again
any number of times, while settings files come, change and go in any order between the calls. The
contents that are looked at may differ only if their fingerprints do.

After every call the fingerprint in force is that of the text the settings in force were read from
exactly when the last call that put settings in force did not stray, or there was no such call. A
call finds nothing new exactly when the file it looks at holds the text that was compared last,
and that is the text the settings in force were read from exactly when no stray call is in force.

Proof: the fingerprint in force is that of the text that was compared when the settings were put
in force. That text and the one they were read from part when a call strays, and meet again when
one does not; no other call changes either of them. -/
theorem fingerprint_of_parsed_unless_strayed (disk : Disk) (wellFormed : disk.top.WellFormed)
    (entries : Folder) (here : disk.top.node? disk.current = some (.folder entries))
    (arguments : Arguments) (path : Path)
    (found : Settings.find? disk disk.currentPath arguments.config = some path) (project : Project)
    (loaded : (Project.load disk arguments).value = .ok project) (disks : List Disk)
    (distinct : ∀ one ∈ (run disk project disks).contents,
      ∀ other ∈ (run disk project disks).contents, fingerprintOf one = fingerprintOf other → one = other) :
    let history := run disk project disks
    (Project.load history.read arguments).value = .ok history.current.project ∧
      ((∃ text, history.parsed = some text ∧ history.current.fingerprint = fingerprintOf text) ↔
        ¬ Strayed disk project disks) ∧
      ∀ before next after, disks = before ++ next :: after →
        let earlier := run disk project before
        ((earlier.current.reload next).value = .ok none ↔
          ∃ text, next.readText earlier.current.project.settingsPath = .ok text ∧
            earlier.compared = some text) ∧
        (earlier.compared = earlier.parsed ↔ ¬ Strayed disk project before) := by
  have firm : Files.Firm disk.top disk.current := ⟨_, here, by simp⟩
  have sound := sound_run disk wellFormed firm path found project loaded
  have apart := apart_iff_strayed disk wellFormed firm path found project loaded
  refine ⟨(sound disks).loaded, ?_, ?_⟩
  · obtain ⟨compared, same, taken⟩ := (sound disks).taken
    rw [← apart disks, not_not, same]
    constructor
    · rintro ⟨text, parses, matching⟩
      rw [parses, distinct text ((sound disks).parsed text parses) compared
        ((sound disks).compared compared same) (matching.symm.trans taken)]
    · intro meets
      exact ⟨compared, meets, taken⟩
  · rintro before next after rfl
    obtain ⟨compared, same, taken⟩ := (sound before).taken
    -- What the call looks at is still among the contents after the later calls.
    have later : (run disk project (before ++ [next])).contents ⊆
        (run disk project (before ++ next :: after)).contents := by
      have longer := contents_mono disk project (before ++ [next]) after
      rwa [List.append_assoc, List.singleton_append] at longer
    rw [run_snoc, follow_contents] at later
    constructor
    · rw [Current.reload_none_iff, taken]
      constructor
      · rintro ⟨text, reads, matching⟩
        have looked : text ∈ looksAt (run disk project before).current next := by
          rw [mem_looksAt, reads]
          exact Or.inl rfl
        have equal := distinct text (later (List.mem_append_right _ looked)) compared
          (later (List.mem_append_left _ ((sound before).compared compared same))) matching
        exact ⟨text, reads, equal ▸ same⟩
      · rintro ⟨text, reads, equal⟩
        exact ⟨text, reads, congrArg fingerprintOf (Option.some.inj (equal.symm.trans same))⟩
    · rw [← apart before, not_not]
      exact eq_comm

/-- Arguments that name a worker, so that an empty settings file is enough. -/
def plainArguments : Arguments := { job := .watch, worker := some "worker" }

/-- A disk with a settings file above the current folder, and maybe one in it. -/
def nestedDisk (above : String) (within : Option String) : Disk where
  top := .entry "kiln.toml" (.file above.toUTF8) (.entry "sub" (.folder (match within with
    | none => .empty
    | some text => .entry "kiln.toml" (.file text.toUTF8) .empty)) .empty)
  current := ["sub"]

theorem nestedDisk_wellFormed (above : String) (within : Option String) :
    (nestedDisk above within).top.WellFormed := by
  have settings : Files.IsEntryName "kiln.toml" := by decide
  have folder : Files.IsEntryName "sub" := by decide
  refine ⟨settings, by simp [Folder.names, Folder.toList], trivial, folder, by decide, ?_, trivial⟩
  cases within with
  | none => exact trivial
  | some text => exact ⟨settings, by decide, trivial, trivial⟩

/-- Where the settings files of the disk are. -/
theorem nestedDisk_placeOf (above : String) (within : Option String) :
    (nestedDisk above within).placeOf true ⟨"/kiln.toml"⟩ = .ok ["kiln.toml"] ∧
      (nestedDisk above within).placeOf true ⟨"/sub/kiln.toml"⟩ =
        if within.isSome then .ok ["sub", "kiln.toml"] else .error .missing := by
  simp only [Disk.placeOf, show Files.stepsOf "/kiln.toml" = [.into "kiln.toml"] by decide,
    show Files.stepsOf "/sub/kiln.toml" = [.into "sub", .into "kiln.toml"] by decide]
  cases within <;>
    simp +decide [Files.walkSteps, Folder.node?, Folder.get?, nestedDisk]

theorem readText_written (disk : Disk) (path : Path) (text : String)
    (leads : disk.nodeOf true path = .ok (.file text.toUTF8)) : disk.readText path = .ok text := by
  have decoded : String.fromUTF8? text.toUTF8 = some text := by
    simp only [String.fromUTF8?, String.toUTF8_eq_toByteArray, dif_pos text.isValidUTF8]
    rfl
  simp only [Disk.readText, Disk.readBytes, leads, decoded]

/-- What the settings files of the disk hold. -/
theorem nestedDisk_readText (above : String) (within : Option String) :
    (nestedDisk above within).readText ⟨"/kiln.toml"⟩ = .ok above ∧
      ∀ text, within = some text → (nestedDisk above within).readText ⟨"/sub/kiln.toml"⟩ = .ok text := by
  obtain ⟨upper, lower⟩ := nestedDisk_placeOf above within
  refine ⟨?_, ?_⟩
  · apply readText_written
    exact Files.nodeOf_eq _ true _ _ _ upper rfl
  · rintro text rfl
    apply readText_written
    exact Files.nodeOf_eq _ true _ _ _ lower rfl

/-- The nearer of the settings files of the disk is found. -/
theorem nestedDisk_find? (above : String) (within : Option String) :
    Settings.find? (nestedDisk above within) (nestedDisk above within).currentPath
        plainArguments.config =
      some (if within.isSome then ⟨"/sub/kiln.toml"⟩ else ⟨"/kiln.toml"⟩) := by
  obtain ⟨upper, lower⟩ := nestedDisk_placeOf above within
  have folder : (nestedDisk above within).currentPath = Files.Place.path ["sub"] := rfl
  have places : (Files.Place.path ["sub"]).ancestors.map (·.join plainArguments.config) =
      [⟨"/sub/kiln.toml"⟩, ⟨"/kiln.toml"⟩] := by decide
  have far : (nestedDisk above within).has ⟨"/kiln.toml"⟩ = true := by
    rw [Disk.has, Disk.nodeOf, upper]
    rfl
  have near : (nestedDisk above within).has ⟨"/sub/kiln.toml"⟩ = within.isSome := by
    rw [Disk.has, Disk.nodeOf, lower]
    cases within <;> rfl
  rw [Settings.find?, if_neg (by decide), folder, places, List.find?_cons, List.find?_cons, near, far]
  cases within <;> rfl

/-- Settings that say nothing are usable with these arguments. -/
theorem plainArguments_usable (disk : Disk) (path : Path) :
    (Project.checked (Project.assemble disk plainArguments {} path)).value =
      .ok (Project.assemble disk plainArguments {} path) := by
  have worker : (Project.assemble disk plainArguments {} path).settings.worker.check = .ok () := by
    show WorkerSettings.check { command := Text.words "worker" } = _
    decide
  have watch : (Project.assemble disk plainArguments {} path).settings.watch.check = .ok () := by
    simp [Project.assemble, Project.override, plainArguments, Project.rootsFrom, WatchSettings.check]
  simp only [Project.checked, Settings.check, worker, watch]

/-- The project that is loaded from the disk when the nearer settings file says nothing. -/
theorem nestedDisk_load (above : String) (within : Option String) (passed : List String)
    (empty : Settings.read (within.getD above) = .ok ({}, passed)) :
    ∃ project, (Project.load (nestedDisk above within) plainArguments).value = .ok project ∧
      project.settingsPath = (if within.isSome then ⟨"/sub/kiln.toml"⟩ else ⟨"/kiln.toml"⟩) ∧
      Project.sourceText? (nestedDisk above within) plainArguments = some (within.getD above) := by
  obtain ⟨upper, lower⟩ := nestedDisk_placeOf above within
  obtain ⟨far, near⟩ := nestedDisk_readText above within
  refine ⟨Project.assemble (nestedDisk above within) plainArguments {}
    (if within.isSome then ⟨"/sub/kiln.toml"⟩ else ⟨"/kiln.toml"⟩), ?_, ?_, ?_⟩
  · rw [Project.load, nestedDisk_find?]
    cases within with
    | none =>
      have reads : Settings.read above = .ok ({}, passed) := empty
      simp only [Option.isSome_none, Bool.false_eq_true, if_false, Project.readSettings, far, reads]
      exact plainArguments_usable _ _
    | some text =>
      have reads : Settings.read text = .ok ({}, passed) := empty
      simp only [Option.isSome_some, if_true, Project.readSettings, near text rfl, reads]
      exact plainArguments_usable _ _
  · cases within with
    | none => exact Files.normalize_ok _ _ _ upper
    | some text => exact Files.normalize_ok _ _ _ lower
  · rw [Project.sourceText?, nestedDisk_find?, Option.bind_some]
    cases within with
    | none =>
      simp only [Option.isSome_none, Bool.false_eq_true, if_false, far]
      rfl
    | some text =>
      simp only [Option.isSome_some, if_true, near text rfl]
      rfl

/-- Settings that say nothing, in three wordings of different fingerprints. -/
theorem wordings_differ :
    ∀ one ∈ ["", "#b", "#c"], ∀ other ∈ ["", "#b", "#c"],
      fingerprintOf one = fingerprintOf other → one = other := by
  decide +kernel

/-- A settings file that is edited in its place has its own fingerprint in force. -/
theorem edited_settings_have_fingerprint :
    ∃ project, (Project.load (nestedDisk "" none) plainArguments).value = .ok project ∧
      ∃ text, (run (nestedDisk "" none) project [nestedDisk "#b" none]).parsed = some text ∧
        (run (nestedDisk "" none) project [nestedDisk "#b" none]).current.fingerprint =
          fingerprintOf text := by
  obtain ⟨project, loaded, kept, source⟩ := nestedDisk_load "" none [] rfl
  obtain ⟨-, -, -, changed⟩ := nestedDisk_load "#b" none [] rfl
  have arguments := Project.load_arguments _ _ project loaded
  have first := (nestedDisk_readText "" none).1
  have second := (nestedDisk_readText "#b" none).1
  have looked : looksAt (Current.start (nestedDisk "" none) project) (nestedDisk "" none) = ["", ""] := by
    simp only [looksAt, Current.start, arguments, kept, source, Option.isSome_none, Bool.false_eq_true,
      if_false, first]
    rfl
  have again : looksAt (Current.start (nestedDisk "" none) project) (nestedDisk "#b" none) =
      ["#b", "#b"] := by
    simp only [looksAt, Current.start, arguments, kept, changed, Option.isSome_none, Bool.false_eq_true,
      if_false, second]
    rfl
  have contents : (run (nestedDisk "" none) project [nestedDisk "#b" none]).contents =
      ["", "", "#b", "#b"] := by
    rw [run, List.foldl_cons, List.foldl_nil, follow_contents, start, looked, again]
    rfl
  have distinct : ∀ one ∈ ["", "", "#b", "#b"], ∀ other ∈ ["", "", "#b", "#b"],
      fingerprintOf one = fingerprintOf other → one = other := by
    decide +kernel
  obtain ⟨-, fingerprint, -⟩ := fingerprint_of_parsed_unless_strayed (nestedDisk "" none)
    (nestedDisk_wellFormed "" none) .empty rfl plainArguments _ (nestedDisk_find? "" none) project
    loaded [nestedDisk "#b" none] (contents ▸ distinct)
  refine ⟨project, loaded, fingerprint.mpr fun strayed => ?_⟩
  -- The only call finds the settings where it looks for a change.
  rcases (strayed_snoc _ project [] _).mp strayed with ⟨-, apart⟩ | ⟨earlier, -⟩
  · apply apart
    simp only [run, List.foldl_nil, start, Current.start, arguments, kept, changed, Option.isSome_none,
      Bool.false_eq_true, if_false, second]
    rfl
  · exact not_strayed_nil _ project earlier

/-- A settings file that appears nearer than the one in force is loaded with the fingerprint of
that, and its next edit goes unnoticed. -/
theorem nearer_settings_have_other_fingerprint :
    ∃ project, (Project.load (nestedDisk "" none) plainArguments).value = .ok project ∧
      (∀ one ∈ ["", "#b", "#c"], ∀ other ∈ ["", "#b", "#c"],
        fingerprintOf one = fingerprintOf other → one = other) ∧
      let history := run (nestedDisk "" none) project [nestedDisk "#c" (some "#b")]
      history.parsed = some "#b" ∧ history.current.fingerprint ≠ fingerprintOf "#b" ∧
        (nestedDisk "#c" (some "#c")).readText history.current.project.settingsPath = .ok "#c" ∧
        (history.current.reload (nestedDisk "#c" (some "#c"))).value = .ok none := by
  obtain ⟨project, loaded, kept, -⟩ := nestedDisk_load "" none [] rfl
  obtain ⟨nearer, reloaded, moved, source⟩ := nestedDisk_load "#c" (some "#b") [] rfl
  have arguments := Project.load_arguments _ _ project loaded
  have above := (nestedDisk_readText "#c" (some "#b")).1
  have edited := (nestedDisk_readText "#c" (some "#c")).2 "#c" rfl
  have begun : (start (nestedDisk "" none) project).current = ⟨project, fingerprintOf ""⟩ := by
    have first := (nestedDisk_readText "" none).1
    simp only [start, Current.start, kept, Option.isSome_none, Bool.false_eq_true, if_false, first]
  have adopted : ((start (nestedDisk "" none) project).current.reload
      (nestedDisk "#c" (some "#b"))).value = .ok (some ⟨nearer, fingerprintOf "#c"⟩) := by
    rw [begun, Current.reload_some_iff]
    refine ⟨"#c", ?_, ?_, ?_, rfl⟩
    · rw [kept]
      exact above
    · intro same
      exact absurd (wordings_differ "#c" (by simp) "" (by simp) same) (by decide)
    · rw [arguments]
      exact reloaded
  have after := follow_adopts _ _ _ adopted
  refine ⟨project, loaded, wordings_differ, ?_⟩
  simp only [run, List.foldl_cons, List.foldl_nil, after, moved, Option.isSome_some, if_true, edited,
    true_and, parsed, Project.load_arguments _ _ nearer reloaded, source, Current.reload_none_iff]
  refine ⟨rfl, by decide +kernel, "#c", rfl, rfl⟩

end Reloading
end BuildWatch
