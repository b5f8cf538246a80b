import BuildWatch.Proofs.Settings.Loading
import BuildWatch.Proofs.Watch.Loop

/-!
# Settings are read again until they can be read

When the settings cannot be read again, or say nothing new, the watcher goes on as if it had not
tried. So it may try any number of times, and what comes of the next try depends on the settings
in force and on the files alone.

The settings in force say nothing new when they are restored, unless they are in force with the
fingerprint of another file. Then they are loaded once more.
-/

namespace BuildWatch

open Files (Disk)

namespace Files

/-- Where nothing is, nothing can be read under the normal path either. -/
theorem readText_normalize_missing (disk : Disk) (here : Firm disk.top disk.current) (path : Path)
    (absolute : path.isAbsolute = true) (missing : disk.has path = false) :
    ∃ cause, disk.readText (disk.normalize path) = .error cause := by
  rcases normalize_eq disk path with ⟨place, leads, -⟩ | ⟨-, -, kept⟩
  · obtain ⟨node, stands, -⟩ := placeOf_firm disk path place here leads
    rw [Disk.has, nodeOf_eq disk true path place node leads stands] at missing
    simp [Except.isOk, Except.toBool] at missing
  · rw [kept, if_pos absolute]
    cases leads : disk.nodeOf true path with
    | ok node =>
      rw [Disk.has, leads] at missing
      simp [Except.isOk, Except.toBool] at missing
    | error fault => exact ⟨fault, by rw [Disk.readText, Disk.readBytes, leads]⟩

end Files

namespace Current

variable (disk : Disk) (current : Current)

/-- Reading the settings again puts nothing in force: it fails, or finds nothing new. -/
def Fruitless : Prop :=
  (∃ fault, (current.reload disk).value = .error fault) ∨ (current.reload disk).value = .ok none

theorem fruitless_iff :
    current.Fruitless disk ↔ ∀ new, (current.reload disk).value ≠ .ok (some new) := by
  rw [Fruitless]
  cases (current.reload disk).value with
  | error fault => simp
  | ok result => cases result <;> simp

/-- A call fails when the file cannot be read, or when it says something new and the settings cannot
be loaded. -/
theorem reload_error_iff (fault : ReloadFault) :
    (current.reload disk).value = .error fault ↔
      (∃ cause, disk.readText current.project.settingsPath = .error cause ∧
        fault = .unreadable cause) ∨
      ∃ text cause, disk.readText current.project.settingsPath = .ok text ∧
        fingerprintOf text ≠ current.fingerprint ∧
        (Project.load disk current.project.arguments).value = .error cause ∧
        fault = .settings cause := by
  rw [reload]
  cases reads : disk.readText current.project.settingsPath with
  | error cause => simp [Noted.quiet, eq_comm]
  | ok text =>
    by_cases same : fingerprintOf text = current.fingerprint
    · simp [same, Noted.quiet]
    · cases loaded : (Project.load disk current.project.arguments).value with
      | error cause => simpa [same, Noted.andThen, Noted.quiet, loaded] using eq_comm
      | ok project => simp [same, Noted.andThen, Noted.quiet, loaded]

end Current

namespace Watcher

variable (disk : Disk) (around : Surroundings) (state : Watcher)

/-- Reading the settings again without fruit leaves the watcher as it is. -/
theorem reload_fruitless (current : Current) (inForce : state.current = some current)
    (fruitless : current.Fruitless disk) : (reload disk around state).value = state := by
  rcases reload_value disk around state with same | ⟨old, new, there, adopts, -⟩
  · exact same
  · obtain rfl : old = current := Option.some.inj (there.symm.trans inForce)
    exact absurd adopts ((Current.fruitless_iff disk old).mp fruitless new)

/-- It may be tried any number of times. -/
theorem reloads_fruitless (state : Watcher) (current : Current)
    (inForce : state.current = some current) (moments : List Loop.Moment)
    (fruitless : ∀ moment ∈ moments, current.Fruitless moment.disk) :
    moments.foldl (fun watcher moment =>
      (Watcher.reload moment.disk moment.around watcher).value) state = state := by
  induction moments with
  | nil => rfl
  | cons moment rest inductionHypothesis =>
    obtain ⟨first, others⟩ := List.forall_mem_cons.mp fruitless
    rw [List.foldl_cons, reload_fruitless moment.disk moment.around state current inForce first]
    exact inductionHypothesis others

/-- Reading the settings again brings the settings in force where their history goes. -/
theorem reload_current (history : Reloading) (inForce : state.current = some history.current) :
    (reload disk around state).value.current = some (history.follow disk).current := by
  by_cases adopts : history.Adopts disk
  · obtain ⟨new, read⟩ := adopts
    rw [reload_adopts disk around state history.current new inForce read, adopt_value,
      Reloading.follow_adopts history disk new read]
    split_ifs
    · rw [startWalk_value]
      rfl
    · rfl
  · have fruitless := (Current.fruitless_iff disk history.current).mpr fun new read =>
      adopts ⟨new, read⟩
    rw [reload_fruitless disk around state history.current inForce fruitless,
      Reloading.follow_idle history disk adopts]
    exact inForce

end Watcher

namespace Loop

/-- The disks on which a happening has the settings read again. -/
def rereads (loop : Loop) : Happening → List Disk
  | .ask .events moment =>
    match loop.events with
    | .settingsChanged :: _ => [moment.disk]
    | _ => []
  | _ => []

/-- The disks on which some happenings have the settings read again, in order. -/
def disksRead (loop : Loop) : List Happening → List Disk
  | [] => []
  | happening :: rest => loop.rereads happening ++ (loop.follow happening).disksRead rest

/-- The settings in force after a happening. -/
theorem current_follow (loop : Loop) (happening : Happening) (history : Reloading)
    (inForce : loop.watcher.current = some history.current) :
    (loop.follow happening).watcher.current =
      some ((loop.rereads happening).foldl Reloading.follow history).current := by
  cases happening with
  | event | request | wake | within => exact inForce
  | ask source moment =>
    cases source with
    | events =>
      rw [follow, ask, rereads]
      cases loop.events with
      | nil => exact inForce
      | cons event rest =>
        cases event with
        | changed paths =>
          have kept : (loop.watcher.change moment.now paths).current = loop.watcher.current := by
            rw [Watcher.change]
            split_ifs <;> rfl
          exact kept.trans inForce
        | rootsChanged =>
          have kept : loop.watcher.handleRaised.value.current = loop.watcher.current := by
            rw [Watcher.handleRaised, Watcher.startWalk_value]
          exact kept.trans inForce
        | settingsChanged =>
          exact Watcher.reload_current moment.disk moment.around loop.watcher history inForce
    | requests =>
      have kept : loop.watcher.rebuild.value.current = loop.watcher.current := by
        rw [Watcher.rebuild, Watcher.startWalk_value]
      rw [follow, ask]
      split_ifs
      · exact inForce
      · exact kept.trans inForce
    | walk =>
      have kept : loop.watcher.collect.value.1.current = loop.watcher.current := by
        rw [Watcher.collect]
        split <;> rfl
      rw [follow, ask]
      split <;> rename_i same
      all_goals
        rw [same] at kept
        exact kept.trans inForce
    | clock =>
      have kept : (loop.watcher.tickIn moment.around moment.now).value.current =
          loop.watcher.current := by
        rcases Watcher.tickIn_value moment.around moment.now loop.watcher with
          ⟨waiting, reason, same⟩ | ⟨-, same⟩
        · rw [same, Watcher.startWalk_value]
        · rw [same]
      exact kept.trans inForce

/-- The settings in force after some happenings. -/
theorem current_run (loop : Loop) (happenings : List Happening) (history : Reloading)
    (inForce : loop.watcher.current = some history.current) :
    (loop.run happenings).watcher.current =
      some ((loop.disksRead happenings).foldl Reloading.follow history).current := by
  induction happenings generalizing loop history with
  | nil => exact inForce
  | cons happening rest inductionHypothesis =>
    rw [disksRead, List.foldl_append]
    exact inductionHypothesis _ _ (current_follow loop happening history inForce)

end Loop

namespace Reloading

open Current (fingerprintOf)

/-- When a project is loaded, the text that is compared is the one its settings are read from, if
there is one. -/
theorem start_together (disk : Disk) (wellFormed : disk.top.WellFormed)
    (here : Files.Firm disk.top disk.current) (arguments : Arguments) (project : Project)
    (loaded : (Project.load disk arguments).value = .ok project) :
    (start disk project).parsed = (start disk project).compared := by
  cases found : Settings.find? disk disk.currentPath arguments.config with
  | some path => exact (sound_start disk wellFormed here path found project loaded).2
  | none =>
    -- Nothing stands where the settings file would be made, so nothing is compared either.
    rcases Project.load_parses disk arguments project loaded with
      ⟨path, text, settings, passed, there, -⟩ | ⟨-, rfl⟩
    · simp [found] at there
    · have missing := Project.has_of_find?_eq_none _ _ found
      obtain ⟨cause, unread⟩ : ∃ cause,
          disk.readText (disk.normalize (disk.currentPath.join arguments.config)) = .error cause :=
        Files.readText_normalize_missing disk here _
          (Files.join_isAbsolute _ _ (Files.path_absolute disk.current).1) missing
      have settingsPath : (Project.assemble disk arguments {}
          (disk.currentPath.join arguments.config)).settingsPath =
            disk.normalize (disk.currentPath.join arguments.config) := rfl
      have kept := Project.load_arguments disk arguments _ loaded
      rw [parsed, start, Current.start, Project.sourceText?, kept, found, settingsPath, unread]
      rfl

theorem arguments_run (disk : Disk) (project : Project) (disks : List Disk) :
    (run disk project disks).current.project.arguments = project.arguments := by
  induction disks using List.reverseRecOn with
  | nil => rfl
  | append_singleton before last inductionHypothesis =>
    rw [run_snoc, ← inductionHypothesis]
    by_cases adopts : (run disk project before).Adopts last
    · obtain ⟨new, adopted⟩ := adopts
      obtain ⟨-, -, -, loaded, -⟩ := (Current.reload_some_iff last _ new).mp adopted
      rw [follow_adopts _ last new adopted]
      exact Project.load_arguments last _ new.project loaded
    · rw [follow_idle _ last adopts]

/-- What is known of the text that was compared last and of the text that the settings in force were
read from. -/
structure Remembered (history : Reloading) : Prop where
  taken : ∀ text, history.compared = some text → history.current.fingerprint = fingerprintOf text
  seen : history.compared = none → history.parsed = none
  compared : ∀ text, history.compared = some text → text ∈ history.contents
  parsed : ∀ text, history.parsed = some text → text ∈ history.contents

theorem remembered_start (disk : Disk) (project : Project)
    (together : (start disk project).parsed = (start disk project).compared) :
    Remembered (start disk project) := by
  have looked (text : String) (same : (start disk project).compared = some text) :
      text ∈ (start disk project).contents :=
    (mem_looksAt (Current.start disk project) disk text).mpr (Or.inl same)
  refine ⟨fun text same => ?_, fun none => together.trans none, looked, fun text same =>
    looked text (together ▸ same)⟩
  rw [start] at same
  cases reads : disk.readText project.settingsPath with
  | error cause => simp [reads, Except.toOption] at same
  | ok other =>
    obtain rfl : other = text := by simpa [reads, Except.toOption] using same
    simp only [start, Current.start, reads]

theorem remembered_follow (history : Reloading) (disk : Disk) (remembered : Remembered history) :
    Remembered (history.follow disk) := by
  by_cases adopts : history.Adopts disk
  · obtain ⟨new, adopted⟩ := adopts
    obtain ⟨text, reads, -, loaded, taken⟩ :=
      (Current.reload_some_iff disk history.current new).mp adopted
    have kept := Project.load_arguments disk _ new.project loaded
    rw [follow_adopts history disk new adopted, reads]
    refine ⟨?_, by simp [Except.toOption], ?_, ?_⟩
    · intro other same
      rw [← show text = other from Option.some.inj same]
      exact taken
    · intro other same
      refine List.mem_append_right _ ((mem_looksAt history.current disk other).mpr (Or.inl ?_))
      rwa [reads]
    · intro other same
      rw [parsed, kept] at same
      exact List.mem_append_right _ ((mem_looksAt history.current disk other).mpr (Or.inr same))
  · rw [follow_idle history disk adopts]
    exact ⟨remembered.taken, remembered.seen,
      fun text same => List.mem_append_left _ (remembered.compared text same),
      fun text same => List.mem_append_left _ (remembered.parsed text same)⟩

theorem remembered_run (disk : Disk) (project : Project)
    (together : (start disk project).parsed = (start disk project).compared) (disks : List Disk) :
    Remembered (run disk project disks) := by
  induction disks using List.reverseRecOn with
  | nil => exact remembered_start disk project together
  | append_singleton before last inductionHypothesis =>
    rw [run_snoc]
    exact remembered_follow _ last inductionHypothesis

section Restored

variable {history : Reloading} (remembered : Remembered history) {text : String}
  (parses : history.parsed = some text) (restored : Disk)
  (reads : restored.readText history.current.project.settingsPath = .ok text)

include remembered parses reads

/-- Restored settings say nothing new when the text that is compared is theirs. -/
theorem restored_none (together : history.parsed = history.compared) :
    (history.current.reload restored).value = .ok none := by
  rw [Current.reload_none_iff]
  exact ⟨text, reads, (remembered.taken text (together.symm.trans parses)).symm⟩

/-- Restored settings seem new when another text is compared. -/
theorem restored_new (apart : history.parsed ≠ history.compared)
    (distinct : ∀ one ∈ history.contents, ∀ other ∈ history.contents,
      fingerprintOf one = fingerprintOf other → one = other) :
    (history.current.reload restored).value ≠ .ok none := by
  intro nothing
  obtain ⟨found, same, matching⟩ := (Current.reload_none_iff _ _).mp nothing
  obtain rfl : text = found := Except.ok.inj (reads.symm.trans same)
  cases compares : history.compared with
  | none => simp [remembered.seen compares] at parses
  | some other =>
    have equal := distinct text (remembered.parsed text parses) other
      (remembered.compared other compares) (matching.trans (remembered.taken other compares))
    exact apart (by rw [parses, compares, equal])

end Restored

end Reloading

namespace Loop

open Current (fingerprintOf)

/-- **Reading the settings again without fruit is without effect.** Let a loaded project be put in
force, and let the loop of its watcher run through any happenings, while settings files come,
change and go. When the settings are read again and this fails, or finds nothing new, the watcher
stays as it is with all it keeps, and of the queue only the event is gone. So it may be tried any
number of times.

When the file holds again the text that the settings in force were read from, nothing new is found,
unless a stray call is in force; then something new is found, provided that contents with one
fingerprint are the same. And a file that says something new is taken as soon as the settings can be
loaded.

Proof: what is read depends on the settings in force and on the disk, and only a call that puts
settings in force changes anything. Where the loop is, the settings in force are those that come of
the calls that it made, one after the other; and for these it is known when the text they were read
from is the one that is compared. -/
theorem fruitless_reloads_without_effect (disk : Disk) (wellFormed : disk.top.WellFormed)
    (entries : Files.Folder) (here : disk.top.node? disk.current = some (.folder entries))
    (arguments : Arguments) (project : Project)
    (loaded : (Project.load disk arguments).value = .ok project) (around : Surroundings)
    (early : List WatchEvent) (happenings : List Happening) :
    let begun := start around project (Current.start disk project).fingerprint early
    let loop := begun.run happenings
    let history := Reloading.run disk project (begun.disksRead happenings)
    loop.watcher.current = some history.current ∧
      (∀ moment rest, loop.events = .settingsChanged :: rest →
        history.current.Fruitless moment.disk →
        loop.ask moment .events = { loop with events := rest, next := .events }) ∧
      (∀ moments : List Moment, (∀ moment ∈ moments, history.current.Fruitless moment.disk) →
        moments.foldl (fun watcher moment =>
          (Watcher.reload moment.disk moment.around watcher).value) loop.watcher = loop.watcher) ∧
      (∀ text, history.parsed = some text → ∀ restored : Disk,
        restored.readText history.current.project.settingsPath = .ok text →
        (¬ Reloading.Strayed disk project (begun.disksRead happenings) →
          (history.current.reload restored).value = .ok none) ∧
        (Reloading.Strayed disk project (begun.disksRead happenings) →
          (∀ one ∈ history.contents, ∀ other ∈ history.contents,
            fingerprintOf one = fingerprintOf other → one = other) →
          (history.current.reload restored).value ≠ .ok none)) ∧
      ∀ (edited : Disk) text, edited.readText history.current.project.settingsPath = .ok text →
        fingerprintOf text ≠ history.current.fingerprint →
        ∀ next, (Project.load edited arguments).value = .ok next →
          (history.current.reload edited).value = .ok (some ⟨next, fingerprintOf text⟩) := by
  intro begun loop history
  have firm : Files.Firm disk.top disk.current := ⟨_, here, by simp⟩
  have together := Reloading.start_together disk wellFormed firm arguments project loaded
  have inForce : loop.watcher.current = some history.current :=
    current_run begun happenings (Reloading.start disk project) rfl
  have kept : history.current.project.arguments = arguments :=
    (Reloading.arguments_run disk project _).trans
      (Project.load_arguments disk arguments project loaded)
  refine ⟨inForce, fun moment rest queue fruitless => ?_, fun moments fruitless => ?_,
    fun text parses restored reads => ?_, fun edited text reads new next loads => ?_⟩
  · have same : handled moment loop.watcher .settingsChanged = loop.watcher :=
      Watcher.reload_fruitless moment.disk moment.around _ _ inForce fruitless
    rw [ask, queue]
    simp only [onward, same, Nat.sub_self, List.replicate_zero, List.append_nil]
  · exact Watcher.reloads_fruitless _ _ inForce moments fruitless
  · have remembered := Reloading.remembered_run disk project together (begun.disksRead happenings)
    rw [← Reloading.apart_run_iff disk project together, not_not]
    exact ⟨Reloading.restored_none remembered parses restored reads,
      Reloading.restored_new remembered parses restored reads⟩
  · rw [Current.reload_some_iff, kept]
    exact ⟨text, reads, new, loads, rfl⟩

section Nested

open Reloading

/-- Nothing is loaded from the disk when the nearer settings file cannot be read as such. -/
theorem nestedDisk_load_refused (above : String) (within : Option String) (fault : SettingsFault)
    (amiss : Settings.read (within.getD above) = .error fault) :
    (Project.load (nestedDisk above within) plainArguments).value = .error fault := by
  obtain ⟨far, near⟩ := nestedDisk_readText above within
  rw [Project.load, nestedDisk_find?]
  cases within with
  | none =>
    have reads : Settings.read above = .error fault := amiss
    simp only [Option.isSome_none, Bool.false_eq_true, if_false, Project.readSettings, far, reads]
    rfl
  | some text =>
    have reads : Settings.read text = .error fault := amiss
    simp only [Option.isSome_some, if_true, Project.readSettings, near text rfl, reads]
    rfl

/-- A file with a slip is not taken, and once the slip is undone there is nothing new. -/
theorem undone_slip_unnoticed :
    ∃ project, (Project.load (nestedDisk "" none) plainArguments).value = .ok project ∧
      let current := Current.start (nestedDisk "" none) project
      let loop := start { has := fun _ => true } project current.fingerprint []
      (∃ fault, (current.reload (nestedDisk "=" none)).value = .error fault) ∧
        (Watcher.reload (nestedDisk "=" none) { has := fun _ => true } loop.watcher).value =
          loop.watcher ∧
        (current.reload (nestedDisk "" none)).value = .ok none := by
  obtain ⟨project, loaded, kept, source⟩ := nestedDisk_load "" none [] rfl
  obtain ⟨fault, amiss⟩ : ∃ fault, Settings.read "=" = .error fault := ⟨_, rfl⟩
  have arguments := Project.load_arguments _ _ project loaded
  have first := (nestedDisk_readText "" none).1
  have slipped := (nestedDisk_readText "=" none).1
  have fingerprint : (Current.start (nestedDisk "" none) project).fingerprint = fingerprintOf "" := by
    simp only [Current.start, kept, Option.isSome_none, Bool.false_eq_true, if_false, first]
  have refused : ((Current.start (nestedDisk "" none) project).reload (nestedDisk "=" none)).value =
      .error (.settings fault) := by
    refine (Current.reload_error_iff _ _ _).mpr (Or.inr ⟨"=", fault, ?_, ?_, ?_, rfl⟩)
    · exact kept ▸ slipped
    · rw [fingerprint]
      decide +kernel
    · exact arguments ▸ nestedDisk_load_refused "=" none fault amiss
  have parses : (Reloading.start (nestedDisk "" none) project).parsed = some "" := by
    simp only [Reloading.start, parsed, Current.start, arguments, source]
    rfl
  obtain ⟨-, -, unchanged, restored, -⟩ := fruitless_reloads_without_effect (nestedDisk "" none)
    (nestedDisk_wellFormed "" none) .empty rfl plainArguments project loaded
    { has := fun _ => true } [] []
  refine ⟨project, loaded, ⟨_, refused⟩, ?_, ?_⟩
  · refine unchanged [⟨nestedDisk "=" none, { has := fun _ => true }, 0⟩] fun moment member => ?_
    rw [List.mem_singleton.mp member]
    exact Or.inl ⟨_, refused⟩
  · exact (restored "" parses (nestedDisk "" none) (kept ▸ first)).1 (not_strayed_nil _ project)

/-- When settings in force have the fingerprint of another file, they are loaded once more after a
slip in their own file was undone. -/
theorem undone_slip_loaded_again :
    ∃ project, (Project.load (nestedDisk "" none) plainArguments).value = .ok project ∧
      let begun := start { has := fun _ => true } project
        (Current.start (nestedDisk "" none) project).fingerprint [.settingsChanged]
      let loop := begun.run [.ask .events ⟨nestedDisk "#c" (some "#b"), { has := fun _ => true }, 0⟩]
      ∃ current, loop.watcher.current = some current ∧
        (Project.load (nestedDisk "#c" (some "#b")) plainArguments).value = .ok current.project ∧
        (nestedDisk "#c" (some "#b")).readText current.project.settingsPath = .ok "#b" ∧
        (∃ fault, (current.reload (nestedDisk "#c" (some "="))).value = .error fault) ∧
        (Watcher.reload (nestedDisk "#c" (some "=")) { has := fun _ => true } loop.watcher).value =
          loop.watcher ∧
        ∃ new, (current.reload (nestedDisk "#c" (some "#b"))).value = .ok (some new) := by
  obtain ⟨project, loaded, kept, -⟩ := nestedDisk_load "" none [] rfl
  obtain ⟨nearer, reloaded, moved, -⟩ := nestedDisk_load "#c" (some "#b") [] rfl
  obtain ⟨fault, amiss⟩ : ∃ fault, Settings.read "=" = .error fault := ⟨_, rfl⟩
  have arguments := Project.load_arguments _ _ project loaded
  have arguments' := Project.load_arguments _ _ nearer reloaded
  have first := (nestedDisk_readText "" none).1
  obtain ⟨above, within⟩ := nestedDisk_readText "#c" (some "#b")
  have slipped := (nestedDisk_readText "#c" (some "=")).2 "=" rfl
  have fingerprint : (Current.start (nestedDisk "" none) project).fingerprint = fingerprintOf "" := by
    simp only [Current.start, kept, Option.isSome_none, Bool.false_eq_true, if_false, first]
  have adopted : ((Reloading.start (nestedDisk "" none) project).current.reload
      (nestedDisk "#c" (some "#b"))).value = .ok (some ⟨nearer, fingerprintOf "#c"⟩) := by
    refine (Current.reload_some_iff _ _ _).mpr ⟨"#c", kept ▸ above, ?_, arguments ▸ reloaded, rfl⟩
    rw [Reloading.start, fingerprint]
    decide +kernel
  have others : fingerprintOf "=" ≠ fingerprintOf "#c" ∧ fingerprintOf "#b" ≠ fingerprintOf "#c" := by
    decide +kernel
  have refused : (Current.reload (nestedDisk "#c" (some "=")) ⟨nearer, fingerprintOf "#c"⟩).value =
      .error (.settings fault) := by
    refine (Current.reload_error_iff _ _ _).mpr (Or.inr ⟨"=", fault, ?_, others.1, ?_, rfl⟩)
    · exact moved ▸ slipped
    · exact arguments' ▸ nestedDisk_load_refused "#c" (some "=") fault amiss
  have inForce := current_run
    (start { has := fun _ => true } project (Current.start (nestedDisk "" none) project).fingerprint
      [.settingsChanged])
    [.ask .events ⟨nestedDisk "#c" (some "#b"), { has := fun _ => true }, 0⟩]
    (Reloading.start (nestedDisk "" none) project) rfl
  simp only [disksRead, List.append_nil] at inForce
  change _ = some (Reloading.follow _ (nestedDisk "#c" (some "#b"))).current at inForce
  rw [follow_adopts _ _ _ adopted] at inForce
  refine ⟨project, loaded, _, inForce, reloaded, moved ▸ within "#b" rfl, ⟨_, refused⟩, ?_, ?_⟩
  · exact Watcher.reload_fruitless _ _ _ _ inForce (Or.inl ⟨_, refused⟩)
  · refine ⟨⟨nearer, fingerprintOf "#b"⟩, (Current.reload_some_iff _ _ _).mpr ⟨"#b", ?_, ?_, ?_, rfl⟩⟩
    · exact moved ▸ within "#b" rfl
    · exact others.2
    · exact arguments' ▸ reloaded

end Nested

end Loop
end BuildWatch
