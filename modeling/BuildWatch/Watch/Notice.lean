import BuildWatch.Watch.Watcher

/-!
# Noticing changes of files

A change is noticed below every root that has a subscription. The settings file is
watched through its folder, because it may be replaced by another file of its name.
-/

namespace BuildWatch
namespace Watcher

/-- The changed paths that lie below a root with a subscription. -/
def below (state : Watcher) (paths : List Path) : List Path :=
  paths.filter fun path => state.subscriptions.live.any (·.isPrefixOf path)

/-- Whether a path is that of the settings file, as far as its folder and name go. -/
def isSettingsFile (state : Watcher) (path : Path) : Bool :=
  let settings := state.project.settingsPath
  path.fileName? == settings.fileName? &&
    match path.parent?, settings.parent? with
    | some folder, some other => folder.same other
    | _, _ => false

/-- The events that a change of some paths raises. -/
def notices (state : Watcher) (paths : List Path) : List WatchEvent :=
  (if paths.any state.isSettingsFile then [.settingsChanged] else []) ++
    match state.below paths with
    | [] => []
    | changed => [.changed changed]

end Watcher
end BuildWatch
