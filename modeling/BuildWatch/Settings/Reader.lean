import BuildWatch.Settings.Basic

/-!
# Settings from a file

A section is read entry by entry in the order of the file. What a section has no
field for is passed over and reported by its dotted path. A section may also be
written as the list of its values in the order of its fields; then fields at the
end may be left out, and what is too much is passed over. A date or a time counts
as a section with one entry that has no meaning.
-/

namespace BuildWatch

/-- A field of a section: its name, and how a value is put there. -/
structure SettingsField (σ : Type) where
  name : String
  put : Toml.Value → σ → Option σ

namespace SettingsField

/-- The texts that a value lists. -/
def texts? : Toml.Value → Option (List String)
  | .list items =>
    items.mapM fun item =>
      match item with
      | .text value => some value
      | _ => none
  | _ => none

/-- The fields of the worker's section, in order. -/
def worker : List (SettingsField WorkerSettings) := [
  ⟨"command", fun value draft => (texts? value).map fun command =>
    { draft with command := command }⟩,
  ⟨"target", fun value draft =>
    match value with
    | .text target => some { draft with target := target }
    | _ => none⟩,
  ⟨"stop_after_resolve", fun value draft =>
    match value with
    | .flag stop => some { draft with stopAfterResolve := stop }
    | _ => none⟩]

/-- The fields of the watch section, in order. -/
def watch : List (SettingsField WatchSettings) := [
  ⟨"roots", fun value draft => (texts? value).map fun roots =>
    { draft with roots := roots.map .ofText }⟩,
  ⟨"extensions", fun value draft => (texts? value).map fun extensions =>
    { draft with extensions := extensions }⟩,
  ⟨"debounce_ms", fun value draft =>
    match value with
    | .integer debounce =>
      if 0 ≤ debounce then some { draft with debounce := debounce.toNat } else none
    | _ => none⟩]

end SettingsField

namespace Settings

/-- What was read so far, and the paths of what was passed over. -/
abbrev Partly (σ : Type) := σ × List String

/-- Take one entry of a table in. -/
def takeEntry {σ : Type} (above : String) (fields : List (SettingsField σ)) (state : Partly σ)
    (entry : String × Toml.Value) : Option (Partly σ) :=
  match fields.find? (·.name = entry.1) with
  | some field => (field.put entry.2 state.1).map fun value => (value, state.2)
  | none => some (state.1, state.2 ++ [above ++ entry.1])

/-- The name of the one entry that a date or a time has when it stands for a section. -/
def momentEntry : String := "$__toml_private_datetime"

/-- Read a section with a name in any of its forms. -/
def readSection {σ : Type} (name : String) (fields : List (SettingsField σ)) (start : σ) :
    Toml.Value → Option (Partly σ)
  | .table _ entries => entries.foldlM (takeEntry (name ++ ".") fields) (start, [])
  | .list items =>
    ((fields.zip items).foldlM
      (fun (draft : σ) (entry : SettingsField σ × Toml.Value) => entry.1.put entry.2 draft)
      start).map fun value => (value, [])
  | .moment => some (start, [name ++ "." ++ momentEntry])
  | _ => none

/-- Take one entry of the whole file in. -/
def takeSection (state : Partly Settings) (entry : String × Toml.Value) :
    Option (Partly Settings) :=
  match entry.1 with
  | "worker" =>
    (readSection "worker" SettingsField.worker state.1.worker entry.2).map fun (worker, passed) =>
      ({ state.1 with worker := worker }, state.2 ++ passed)
  | "watch" =>
    (readSection "watch" SettingsField.watch state.1.watch entry.2).map fun (watch, passed) =>
      ({ state.1 with watch := watch }, state.2 ++ passed)
  | other => some (state.1, state.2 ++ [other])

/-- The settings of a table, and the paths of what has no meaning in it. -/
def ofEntries (entries : Toml.Entries) : Option (Partly Settings) :=
  entries.foldlM takeSection ({}, [])

/-- Read the settings of a text. -/
def read (text : String) : Except SettingsFault (Partly Settings) :=
  match Toml.read text with
  | .error cause => .error (.malformed cause)
  | .ok entries =>
    match ofEntries entries with
    | some result => .ok result
    | none => .error .mistyped

end Settings
end BuildWatch
