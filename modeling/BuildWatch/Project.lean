import BuildWatch.Arguments.Basic
import BuildWatch.Settings.Reader
import BuildWatch.Settings.Search
import BuildWatch.Settings.Selection
import BuildWatch.Terminal.Note
import BuildWatch.Text.Fingerprint

/-!
# Projects

A project is what the arguments and the settings file say together. Its root is
the folder of the settings file, and roots in the file are read from there; roots
among the arguments take their place and are read from the current folder. A
project without a settings file has the settings that an empty one has.

While a project is watched its settings file is read again. The fingerprint of the
text that is in force tells whether the file says anything new.
-/

namespace BuildWatch

/-- A project that was loaded. -/
structure Project where
  arguments : Arguments
  settings : Settings
  root : Path
  settingsPath : Path
  deriving DecidableEq, Repr

namespace Project

/-- The folders that are watched. -/
def roots (project : Project) : List Path := project.settings.watch.roots

/-- Whether a file is compiled. -/
def selects (project : Project) (path : Path) : Bool :=
  BuildWatch.selects project.settings.watch.extensions path

/-- Roots that are read from a folder. -/
def rootsFrom (disk : Files.Disk) (folder : Path) (roots : List Path) : List Path :=
  roots.map fun root => disk.normalize (folder.join root)

/-- A root as it is named to the user, relative to the project's root. -/
def rootLabel (root path : Path) : String :=
  let label := Path.relativeTo root path
  if label.bytes.isEmpty then "." else label.text

/-- The roots as they are named to the user. -/
def describedRoots (project : Project) : String :=
  ", ".intercalate (project.roots.map (rootLabel project.root))

/-- The settings of a file, with a warning about what has no meaning in it. -/
def readSettings (disk : Files.Disk) (path : Path) : Noted (Except SettingsFault Settings) :=
  match disk.readText path with
  | .error cause => .quiet (.error (.unreadable path cause))
  | .ok text =>
    match Settings.read text with
    | .error fault => .quiet (.error fault)
    | .ok (settings, passed) =>
      let name := (path.fileName?.map Text.shown).getD path.text
      ⟨.ok settings,
        if passed.isEmpty then []
        else [.log "warning" ("unknown fields in " ++ name ++ " (ignored): " ++
          ", ".intercalate passed)]⟩

/-- Settings with what the arguments say in their place. -/
def override (disk : Files.Disk) (arguments : Arguments) (settings : Settings) : Settings :=
  { worker :=
      { settings.worker with
        command :=
          match arguments.worker with
          | some command => Text.words command
          | none => settings.worker.command
        target := arguments.target.getD settings.worker.target }
    watch :=
      { settings.watch with
        roots :=
          if arguments.roots.isEmpty then settings.watch.roots
          else rootsFrom disk disk.currentPath arguments.roots } }

/-- The project that settings found at a path make with the arguments. -/
def assemble (disk : Files.Disk) (arguments : Arguments) (settings : Settings) (path : Path) :
    Project :=
  let root := disk.normalize (path.parent?.getD disk.currentPath)
  let watch := { settings.watch with roots := rootsFrom disk root settings.watch.roots }
  { arguments := arguments
    settings := override disk arguments { settings with watch := watch }
    root := root
    settingsPath := disk.normalize path }

/-- The project when it is usable. Verbose mode is as the arguments say from here on. -/
def checked (project : Project) : Noted (Except SettingsFault Project) :=
  ⟨match project.settings.check with
    | .error cause => .error (.unusable cause)
    | .ok () => .ok project,
    [.verbosity project.arguments.verbose]⟩

/-- Load the project that the arguments name. -/
def load (disk : Files.Disk) (arguments : Arguments) : Noted (Except SettingsFault Project) :=
  match Settings.find? disk disk.currentPath arguments.config with
  | some path =>
    (readSettings disk path).andThen fun settings =>
      match settings with
      | .error fault => .quiet (.error fault)
      | .ok settings => checked (assemble disk arguments settings path)
  | none =>
    (Noted.detail "config" (arguments.config.text ++ " not found, using defaults")).andThen fun _ =>
      checked (assemble disk arguments {} (disk.currentPath.join arguments.config))

end Project

/-- The project in force and the fingerprint of its settings file. -/
structure Current where
  project : Project
  fingerprint : UInt64
  deriving DecidableEq, Repr

/-- Why settings that changed are not in force. -/
inductive ReloadFault where
  | notLoaded
  | unreadable (cause : Files.Fault)
  | settings (fault : SettingsFault)
  deriving DecidableEq, Repr

namespace ReloadFault

/-- The wording of a fault, with what it was caused by. -/
def message : ReloadFault → String
  | .notLoaded => "config reloaded before initialization"
  | .unreadable cause => cause.message
  | .settings fault =>
    match fault.cause? with
    | some cause => fault.message ++ ": " ++ cause
    | none => fault.message

end ReloadFault

namespace Current

/-- The fingerprint of a text. -/
def fingerprintOf (text : String) : UInt64 := Text.fingerprint text.toUTF8.toList

/-- Put a loaded project in force. A settings file that cannot be read has the
fingerprint zero. -/
def start (disk : Files.Disk) (project : Project) : Current :=
  ⟨project,
    match disk.readText project.settingsPath with
    | .ok text => fingerprintOf text
    | .error _ => 0⟩

/-- Read the settings again. Nothing comes of it when the file says nothing new. -/
def reload (disk : Files.Disk) (current : Current) :
    Noted (Except ReloadFault (Option Current)) :=
  match disk.readText current.project.settingsPath with
  | .error cause => .quiet (.error (.unreadable cause))
  | .ok text =>
    let fingerprint := fingerprintOf text
    if fingerprint = current.fingerprint then .quiet (.ok none)
    else
      (Project.load disk current.project.arguments).andThen fun result =>
        match result with
        | .error fault => .quiet (.error (.settings fault))
        | .ok project => .quiet (.ok (some ⟨project, fingerprint⟩))

end Current
end BuildWatch
