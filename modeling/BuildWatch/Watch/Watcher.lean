import BuildWatch.Project
import BuildWatch.Roots.Subscriptions
import BuildWatch.Walk.Run
import BuildWatch.Walk.Walks
import BuildWatch.Watch.Debouncer
import BuildWatch.Worker.Order

/-!
# The watcher

The watcher decides when the roots are walked. A change below a root is waited out,
while a change of the roots themselves, a root that appears and a typed request
start a walk at once. A new walk takes the place of the one that is active, whose
files may be out of date, and covers all changes that wait. The files of a walk that
ends are what the worker is asked to compile, without those that are not selected.
An empty list is compiled too, so that old diagnostics go away.
-/

namespace BuildWatch

/-- What the watcher is told. -/
inductive WatchEvent where
  | changed (paths : List Path)
  | rootsChanged
  | settingsChanged
  deriving DecidableEq, Repr

/-- The state of the watcher. Of the events only changed roots are raised by the
watcher itself, and the count says how many of them were not handled yet. The
project can be that of the arguments before it is in force. -/
structure Watcher where
  project : Project
  current : Option Current
  subscriptions : Subscriptions
  debouncer : Debouncer
  walks : Walks := {}
  raised : Nat := 0

namespace Watcher

/-- The active walk, if there is one. -/
def walk (state : Watcher) : Option Walk := state.walks.active

/-- How often a missing root is looked for, in milliseconds. -/
def probeInterval : Nat := 1000

/-- The outside as the subscriptions see it; no call is refused there. -/
def surroundings (disk : Files.Disk) : Surroundings := { has := disk.has }

/-- Stop the active walk. -/
def cancel (state : Watcher) : Noted Watcher :=
  match state.walk with
  | none => .quiet state
  | some _ =>
    ⟨{ state with walks := state.walks.cancel }, [.detail "walk" "cancelled active walk"]⟩

/-- Walk the wanted roots, for a stated reason. -/
def startWalk (state : Watcher) (reason : String) : Noted Watcher :=
  let roots := state.subscriptions.roots
  (Noted.detail "walk" ("start (" ++ reason ++ "): " ++ toString roots.length ++ " root(s)")).andThen
    fun _ =>
      (cancel { state with debouncer := state.debouncer.clear }).andThen fun state =>
        .quiet { state with walks := state.walks.start roots }

/-- Change the wanted roots, and raise an event when they differ. -/
def updateRoots (around : Surroundings) (state : Watcher) (roots : List Path) :
    Noted (RootsDiff × Watcher) :=
  let turn := state.subscriptions.update around roots
  ⟨(turn.result,
    { state with
      subscriptions := turn.after
      raised := if turn.result.isEmpty then state.raised else state.raised + 1 }),
    turn.notes⟩

/-- Start to watch a project in some surroundings. -/
def startIn (around : Surroundings) (project : Project) (current : Option Current) : Noted Watcher :=
  (updateRoots around
    { project := project
      current := current
      subscriptions := {}
      debouncer := { window := project.settings.watch.debounce } }
    project.roots).andThen fun (_, state) => .quiet state

/-- Start to watch a project. -/
def start (disk : Files.Disk) (project : Project) (current : Option Current) : Noted Watcher :=
  startIn (surroundings disk) project current

/-- Take a change below the roots. A change of hidden files only is none; one that
names no file is. -/
def change (now : Nat) (state : Watcher) (paths : List Path) : Watcher :=
  let visible := paths.filter (!Path.isHiddenUnder state.subscriptions.roots ·)
  if visible.isEmpty && !paths.isEmpty then state
  else { state with debouncer := state.debouncer.add now visible }

/-- Whether other settings of the worker are in force than those it was started with. -/
def workerDiffers (old new : Project) : Bool :=
  old.settings.worker.command != new.settings.worker.command ||
    old.settings.worker.flags != new.settings.worker.flags

/-- Go on with a project that was loaded anew. -/
def adopt (around : Surroundings) (state : Watcher) (current : Current) : Noted Watcher :=
  let old := state.project
  let new := current.project
  (Noted.tellAll (.log "watch" "config reloaded" ::
    (if workerDiffers old new then [.log "watch" "worker settings take effect after restart"]
      else []))).andThen fun _ =>
    (updateRoots around
      { state with
        project := new
        current := some current
        debouncer := state.debouncer.setWindow new.settings.watch.debounce }
      new.roots).andThen fun (diff, state) =>
        if diff.isEmpty && old.settings.watch.extensions != new.settings.watch.extensions then
          startWalk state "extensions changed"
        else .quiet state

/-- Read the settings again. What goes wrong is told and otherwise without effect. -/
def reload (disk : Files.Disk) (around : Surroundings) (state : Watcher) : Noted Watcher :=
  let failed := fun (fault : ReloadFault) =>
    (⟨state, [.log "error" ("config reload failed: " ++ fault.message)]⟩ : Noted Watcher)
  match state.current with
  | none => failed .notLoaded
  | some current =>
    (current.reload disk).andThen fun result =>
      match result with
      | .error fault => failed fault
      | .ok none => ⟨state, [.detail "watch" "config unchanged"]⟩
      | .ok (some current) => adopt around state current

/-- Handle an event in some surroundings. -/
def handleIn (disk : Files.Disk) (around : Surroundings) (now : Nat) (state : Watcher) :
    WatchEvent → Noted Watcher
  | .changed paths => .quiet (change now state paths)
  | .rootsChanged => startWalk state "roots changed"
  | .settingsChanged => reload disk around state

/-- Handle an event. -/
def handle (disk : Files.Disk) (now : Nat) (state : Watcher) (event : WatchEvent) : Noted Watcher :=
  handleIn disk (surroundings disk) now state event

/-- Take one raised event out of the queue and handle it. -/
def handleRaised (state : Watcher) : Noted Watcher :=
  startWalk { state with raised := state.raised - 1 } "roots changed"

/-- Walk on request. -/
def rebuild (state : Watcher) : Noted Watcher := startWalk state "rebuild requested"

/-- What is done in some surroundings when there was nothing to do for a while. -/
def tickIn (around : Surroundings) (now : Nat) (state : Watcher) : Noted Watcher :=
  let turn := state.subscriptions.maintain around
  (Noted.tellAll turn.notes).andThen fun _ =>
    let state := { state with subscriptions := turn.after }
    if turn.result then startWalk state "root appeared"
    else
      match state.debouncer.take now with
      | (none, _) => .quiet state
      | (some paths, debouncer) =>
        (Noted.tellAll (paths.map fun path => .detail "watch" ("changed: " ++ path.text))).andThen
          fun _ => startWalk { state with debouncer := debouncer } "files changed"

/-- What is done when there was nothing to do for a while. -/
def tick (disk : Files.Disk) (now : Nat) (state : Watcher) : Noted Watcher :=
  tickIn (surroundings disk) now state

/-- How long to wait for something to do, in milliseconds. -/
def wait (now : Nat) (state : Watcher) : Nat :=
  if state.subscriptions.hasMissing then min (state.debouncer.wait now) probeInterval
  else state.debouncer.wait now

/-- The order that the files of a walk make. -/
def orderFor (state : Watcher) (files : List Path) : Noted Order :=
  let selected := files.filter state.project.selects
  ⟨.compile selected,
    [.detail "walk" ("finished: " ++ toString selected.length ++ " of " ++
      toString files.length ++ " files selected")]⟩

/-- Ask for the files of the active walk, and make an order of them once they are there. -/
def collect (state : Watcher) : Noted (Watcher × Option Order) :=
  match state.walks.poll with
  | (.files files, walks) =>
    (orderFor state files).andThen fun order => .quiet ({ state with walks := walks }, some order)
  | (_, walks) => .quiet ({ state with walks := walks }, none)

/-- Let the active walk run to its end, and make an order of its files. -/
def finish (disk : Files.Disk) (state : Watcher) : Noted (Option (Watcher × Order)) :=
  match state.walk with
  | none => .quiet none
  | some walk =>
    (walk.finish disk).andThen fun ended =>
      (collect { state with walks := { state.walks with active := some ended } }).andThen
        fun (state, order) => .quiet (order.map (state, ·))

end Watcher
end BuildWatch
