import BuildWatch.Files.Fault
import BuildWatch.Message.Request
import BuildWatch.Path.Basic
import BuildWatch.Text.Blank
import BuildWatch.Toml.Fault

/-!
# Settings

Settings say how the worker is started, what every compile request asks for,
and which files below which roots are watched. They are usable when they name a
program and a target, at least one root, and only extensions a file can have:
an extension is what follows the last dot of a name, so it holds no dot itself.
-/

namespace BuildWatch

/-- How the worker is started and what it is asked for. -/
structure WorkerSettings where
  command : List String := []
  target : String := "js"
  stopAfterResolve : Bool := true
  deriving DecidableEq, Repr

/-- Which files are watched, and how long to wait after a change, in milliseconds. -/
structure WatchSettings where
  roots : List Path := [⟨"."⟩]
  extensions : List String := []
  debounce : Nat := 300
  deriving DecidableEq, Repr

/-- All settings of a project. -/
structure Settings where
  worker : WorkerSettings := {}
  watch : WatchSettings := {}
  deriving DecidableEq, Repr

/-- Why settings are not usable. -/
inductive SettingsError where
  | noCommand
  | noTarget
  | noRoots
  | notBare (extension : String)
  deriving DecidableEq, Repr

/-- Why settings cannot be had from a file. -/
inductive SettingsFault where
  | unreadable (path : Path) (cause : Files.Fault)
  | malformed (cause : Toml.Fault)
  | mistyped
  | unusable (cause : SettingsError)
  deriving DecidableEq, Repr

namespace SettingsError

/-- The wording of a cause. -/
def message : SettingsError → String
  | .noCommand => "[worker] command is empty; set it in kiln.toml or pass --worker"
  | .noTarget => "[worker] target is empty"
  | .noRoots => "[watch] roots must list at least one directory"
  | .notBare extension =>
    "[watch] extensions: `" ++ extension ++ "` must be a bare extension like \"sk\""

end SettingsError

namespace SettingsFault

/-- The wording of a fault. -/
def message : SettingsFault → String
  | .unreadable path _ => "IO error when reading `" ++ path.text ++ "`"
  | .malformed _ => "Config file parsing error"
  | .mistyped => "Config file parsing error"
  | .unusable cause => "Config validation error: " ++ cause.message

/-- What a fault was caused by, if that is said apart. -/
def cause? : SettingsFault → Option String
  | .unreadable _ cause => some cause.message
  | .malformed cause => some cause.message
  | .mistyped => some "TOML parse error: a value has the wrong type\n"
  | .unusable _ => none

end SettingsFault

namespace WorkerSettings

/-- The program that is the worker. -/
def program? (worker : WorkerSettings) : Option String := worker.command.head?

/-- The arguments of the program. -/
def arguments (worker : WorkerSettings) : List String := worker.command.drop 1

/-- What every compile request asks for. -/
def flags (worker : WorkerSettings) : CompileFlags := ⟨worker.target, worker.stopAfterResolve⟩

/-- Whether there is a worker to start and something to ask of it. -/
def check (worker : WorkerSettings) : Except SettingsError Unit :=
  if Text.isAllBlank (worker.program?.getD "") then .error .noCommand
  else if Text.isAllBlank worker.target then .error .noTarget
  else .ok ()

end WorkerSettings

/-- Whether an extension can be that of a file. -/
def isBareExtension (extension : String) : Bool :=
  !extension.isEmpty && !extension.toList.contains '.'

namespace WatchSettings

/-- Whether there is something to watch. -/
def check (watch : WatchSettings) : Except SettingsError Unit :=
  if watch.roots.isEmpty then .error .noRoots
  else
    match watch.extensions.find? (!isBareExtension ·) with
    | some extension => .error (.notBare extension)
    | none => .ok ()

end WatchSettings

namespace Settings

/-- The first reason why settings are not usable, if there is one. -/
def check (settings : Settings) : Except SettingsError Unit :=
  match settings.worker.check with
  | .error cause => .error cause
  | .ok () => settings.watch.check

end Settings
end BuildWatch
