import BuildWatch.Proofs.Settings.Searching
import BuildWatch.Proofs.Settings.Reading
import BuildWatch.Proofs.Settings.Reloading
import BuildWatch.Proofs.Text.Blank

/-!
# What a loaded project is put together from

Settings come from the nearest settings file, or are the defaults when there is none. Arguments
take the place of some of them. Roots among the arguments are read from the current folder, and
all others from the folder of the settings file. There is always such a folder: only the top
folder and the empty path have nothing above them, and no file has one of these paths.

What comes of it is used as it is, or refused for the first condition that it does not meet. The
conditions are about what was put together. So arguments may make settings usable that are not,
and the other way round.
-/

namespace BuildWatch

namespace Settings

/-- A worker that has a program to start. -/
def NamesProgram (worker : WorkerSettings) : Prop :=
  ∃ program arguments, worker.command = program :: arguments ∧ ¬ Text.AllBlank program.toList

/-- An extension that a file can have. -/
def IsBare (extension : String) : Prop := extension ≠ "" ∧ '.' ∉ extension.toList

/-- Settings that meet all conditions. -/
structure Usable (settings : Settings) : Prop where
  program : NamesProgram settings.worker
  target : ¬ Text.AllBlank settings.worker.target.toList
  roots : settings.watch.roots ≠ []
  extensions : ∀ extension ∈ settings.watch.extensions, IsBare extension

/-- The first condition that settings do not meet. Of several extensions that no file can have,
it is the first in the list. -/
inductive FirstAmiss (settings : Settings) : SettingsError → Prop
  | noCommand (command : ¬ NamesProgram settings.worker) : FirstAmiss settings .noCommand
  | noTarget (program : NamesProgram settings.worker)
      (blank : Text.AllBlank settings.worker.target.toList) : FirstAmiss settings .noTarget
  | noRoots (program : NamesProgram settings.worker)
      (target : ¬ Text.AllBlank settings.worker.target.toList) (none : settings.watch.roots = []) :
      FirstAmiss settings .noRoots
  | notBare (program : NamesProgram settings.worker)
      (target : ¬ Text.AllBlank settings.worker.target.toList) (roots : settings.watch.roots ≠ [])
      (before after : List String) (extension : String)
      (listed : settings.watch.extensions = before ++ extension :: after)
      (earlier : ∀ other ∈ before, IsBare other) (amiss : ¬ IsBare extension) :
      FirstAmiss settings (.notBare extension)

theorem isAllBlank_program_iff (worker : WorkerSettings) :
    Text.isAllBlank (worker.program?.getD "") = true ↔ ¬ NamesProgram worker := by
  rw [Text.isAllBlank_iff, WorkerSettings.program?, NamesProgram]
  cases worker.command with
  | nil => simp [Text.AllBlank]
  | cons program arguments => simp

theorem isBareExtension_iff (extension : String) :
    isBareExtension extension = true ↔ IsBare extension := by
  simp [isBareExtension, IsBare]

/-- What is found out about a worker. -/
theorem worker_check_cases (worker : WorkerSettings) :
    ¬ NamesProgram worker ∧ worker.check = .error .noCommand ∨
      NamesProgram worker ∧ Text.AllBlank worker.target.toList ∧ worker.check = .error .noTarget ∨
      NamesProgram worker ∧ ¬ Text.AllBlank worker.target.toList ∧ worker.check = .ok () := by
  rw [WorkerSettings.check]
  by_cases program : NamesProgram worker
  · rw [if_neg (mt (isAllBlank_program_iff worker).mp (not_not.mpr program))]
    by_cases blank : Text.AllBlank worker.target.toList
    · exact Or.inr (Or.inl ⟨program, blank, if_pos ((Text.isAllBlank_iff _).mpr blank)⟩)
    · exact Or.inr (Or.inr ⟨program, blank, if_neg (mt (Text.isAllBlank_iff _).mp blank)⟩)
  · exact Or.inl ⟨program, if_pos ((isAllBlank_program_iff worker).mpr program)⟩

theorem watch_check_ok_iff (watch : WatchSettings) :
    watch.check = .ok () ↔ watch.roots ≠ [] ∧ ∀ extension ∈ watch.extensions, IsBare extension := by
  rw [WatchSettings.check]
  by_cases none : watch.roots = []
  · simp [none]
  · simp only [List.isEmpty_iff, none, if_false, ne_eq, not_false_eq_true, true_and,
      ← isBareExtension_iff]
    cases found : watch.extensions.find? (!isBareExtension ·) with
    | none => simpa using found
    | some extension =>
      simp only [reduceCtorEq, false_iff]
      intro bare
      have amiss := List.find?_some found
      simp [bare extension (List.mem_of_find?_eq_some found)] at amiss

theorem watch_check_error_iff (watch : WatchSettings) (cause : SettingsError) :
    watch.check = .error cause ↔ cause = .noRoots ∧ watch.roots = [] ∨
      ∃ before after extension, cause = .notBare extension ∧ watch.roots ≠ [] ∧
        watch.extensions = before ++ extension :: after ∧ (∀ other ∈ before, IsBare other) ∧
        ¬ IsBare extension := by
  rw [WatchSettings.check]
  by_cases none : watch.roots = []
  · simp [none, eq_comm]
  · simp only [List.isEmpty_iff, none, if_false, ne_eq, not_false_eq_true, true_and, and_false, false_or,
      ← isBareExtension_iff]
    constructor
    · intro refused
      split at refused
      · rename_i extension found
        obtain ⟨amiss, before, after, listed, earlier⟩ := List.find?_eq_some_iff_append.mp found
        exact ⟨before, after, extension, (Except.error.inj refused).symm, listed, by simpa using earlier,
          by simpa using amiss⟩
      · simp at refused
    · rintro ⟨before, after, extension, rfl, listed, earlier, amiss⟩
      have found : watch.extensions.find? (!isBareExtension ·) = some extension :=
        List.find?_eq_some_iff_append.mpr
          ⟨by simpa using amiss, before, after, listed, by simpa using earlier⟩
      simp only [found]

variable (settings : Settings)

/-- Settings are accepted when they meet all conditions. -/
theorem check_ok_iff : settings.check = .ok () ↔ Usable settings := by
  rw [check]
  rcases worker_check_cases settings.worker with
    ⟨command, outcome⟩ | ⟨program, blank, outcome⟩ | ⟨program, target, outcome⟩
  · simp only [outcome, reduceCtorEq, false_iff]
    exact fun usable => command usable.program
  · simp only [outcome, reduceCtorEq, false_iff]
    exact fun usable => usable.target blank
  · simp only [outcome, watch_check_ok_iff]
    constructor
    · rintro ⟨roots, extensions⟩
      exact ⟨program, target, roots, extensions⟩
    · exact fun usable => ⟨usable.roots, usable.extensions⟩

/-- Settings are refused for the first condition that they do not meet. -/
theorem check_error_iff (cause : SettingsError) :
    settings.check = .error cause ↔ FirstAmiss settings cause := by
  rw [check]
  rcases worker_check_cases settings.worker with
    ⟨command, outcome⟩ | ⟨program, blank, outcome⟩ | ⟨program, target, outcome⟩
  · simp only [outcome, Except.error.injEq]
    constructor
    · rintro rfl
      exact .noCommand command
    · rintro (_ | ⟨program, _⟩ | ⟨program, _⟩ | ⟨program, _⟩)
      · rfl
      all_goals exact absurd program command
  · simp only [outcome, Except.error.injEq]
    constructor
    · rintro rfl
      exact .noTarget program blank
    · rintro (command | _ | ⟨_, target, _⟩ | ⟨_, target, _⟩)
      · exact absurd program command
      · rfl
      all_goals exact absurd blank target
  · simp only [outcome, watch_check_error_iff]
    constructor
    · rintro (⟨rfl, none⟩ | ⟨before, after, extension, rfl, roots, listed, earlier, amiss⟩)
      · exact .noRoots program target none
      · exact .notBare program target roots before after extension listed earlier amiss
    · rintro (command | ⟨_, blank⟩ | ⟨_, _, none⟩ |
        ⟨_, _, roots, before, after, _, listed, earlier, amiss⟩)
      · exact absurd program command
      · exact absurd blank target
      · exact Or.inl ⟨rfl, none⟩
      · exact Or.inr ⟨before, after, _, rfl, roots, listed, earlier, amiss⟩

/-- Of two extensions that no file can have the first is named. -/
example : check { worker := { command := ["skewc"] }, watch := { extensions := ["sk", ".sk", ""] } } =
    .error (.notBare ".sk") := by
  decide

theorem usable_or_amiss : Usable settings ∨ ∃ cause, FirstAmiss settings cause := by
  simp only [← check_ok_iff, ← check_error_iff]
  cases settings.check with
  | ok => exact Or.inl rfl
  | error cause => exact Or.inr ⟨cause, rfl⟩

end Settings

namespace Project

open Files (Disk)

/-- Where settings come from before the arguments take the place of some: the path of a file, its
entries and what is read from them; or the path where a file was missed, and the defaults. -/
inductive Source (disk : Disk) (arguments : Arguments) : Path → Toml.Entries → Settings → Prop
  | file {path : Path} {entries : Toml.Entries} {settings : Settings} (text : String)
      (passed : List String)
      (found : Settings.find? disk disk.currentPath arguments.config = some path)
      (reads : disk.readText path = .ok text) (parses : Toml.read text = .ok entries)
      (taken : Settings.ofEntries entries = some (settings, passed)) :
      Source disk arguments path entries settings
  | absent (unfound : Settings.find? disk disk.currentPath arguments.config = none) :
      Source disk arguments (disk.currentPath.join arguments.config) [] {}

/-- Settings with what the arguments say in their place, given the path that they come from. -/
structure Merges (disk : Disk) (arguments : Arguments) (path : Path) (settings merged : Settings) :
    Prop where
  commandSaid : ∀ line, arguments.worker = some line →
    Text.Splits line.toList (merged.worker.command.map String.toList)
  commandKept : arguments.worker = none → merged.worker.command = settings.worker.command
  targetSaid : ∀ target, arguments.target = some target → merged.worker.target = target
  targetKept : arguments.target = none → merged.worker.target = settings.worker.target
  stopAfterResolve : merged.worker.stopAfterResolve = settings.worker.stopAfterResolve
  rootsSaid : arguments.roots ≠ [] →
    merged.watch.roots = arguments.roots.map fun root => disk.normalize (disk.currentPath.join root)
  rootsKept : arguments.roots = [] → ∃ folder, path.parent? = some folder ∧
    merged.watch.roots = settings.watch.roots.map fun root =>
      disk.normalize ((disk.normalize folder).join root)
  extensions : merged.watch.extensions = settings.watch.extensions
  debounce : merged.watch.debounce = settings.watch.debounce

variable {disk : Disk} {arguments : Arguments} {path : Path} {entries : Toml.Entries}
  {settings merged : Settings}

/-- What is loaded is put together from where the settings come from, and checked. -/
theorem Source.load (source : Source disk arguments path entries settings) :
    (load disk arguments).value = (checked (assemble disk arguments settings path)).value := by
  rw [Project.load]
  cases source with
  | file text passed found reads parses taken =>
    simp only [found, readSettings, reads, Settings.read, parses, taken]
    rfl
  | absent unfound =>
    rw [unfound]
    rfl

/-- The settings of a loaded project come from somewhere. -/
theorem source_of_load (project : Project) (loaded : (load disk arguments).value = .ok project) :
    ∃ path entries settings, Source disk arguments path entries settings ∧
      project = assemble disk arguments settings path := by
  rcases load_parses disk arguments project loaded with
    ⟨path, text, settings, passed, found, reads, taken, rfl⟩ | ⟨unfound, rfl⟩
  · rw [Settings.read] at taken
    split at taken
    · simp at taken
    · rename_i entries parses
      split at taken
      · rename_i result read
        obtain rfl := Except.ok.inj taken
        exact ⟨path, entries, settings, .file text passed found reads parses read, rfl⟩
      · simp at taken
  · exact ⟨_, [], {}, .absent unfound, rfl⟩

theorem Source.given (source : Source disk arguments path entries settings) :
    Settings.Given entries settings := by
  cases source with
  | file text passed found reads parses taken => exact Settings.ofEntries_given _ _ passed taken
  | absent => exact Settings.ofEntries_given [] {} [] rfl

/-- There is nothing under the first path that is tried when no file is found. -/
theorem has_of_find?_eq_none (start name : Path) (unfound : Settings.find? disk start name = none) :
    disk.has (start.join name) = false := by
  cases absolute : name.isAbsolute with
  | true =>
    rw [Settings.find?, if_pos absolute] at unfound
    rw [Path.join, if_pos absolute]
    simpa using unfound
  | false => exact (Settings.find?_eq_none_iff disk name start absolute).mp unfound 0 start rfl

/-- There is a folder that roots of a settings file are read from. -/
theorem Source.folder (source : Source disk arguments path entries settings) :
    ∃ folder, path.parent? = some folder := by
  cases above : path.parent? with
  | some folder => exact ⟨folder, rfl⟩
  | none =>
    exfalso
    rcases path.components_of_orphan above with empty | root
    · rw [Path.components_eq_nil_iff] at empty
      cases source with
      | file text passed found reads parses taken =>
        simp [Disk.readText, Disk.readBytes, Disk.nodeOf, Disk.placeOf, empty] at reads
      | absent unfound =>
        have absolute := Files.join_isAbsolute disk.currentPath arguments.config
          (Files.path_absolute disk.current).1
        simp [Files.absolute_written _ absolute] at empty
    · have leads := Files.nodeOf_top disk path root
      cases source with
      | file text passed found reads parses taken =>
        simp [Disk.readText, Disk.readBytes, leads] at reads
      | absent unfound =>
        have missing := has_of_find?_eq_none _ _ unfound
        rw [Disk.has, leads] at missing
        simp [Except.isOk, Except.toBool] at missing

theorem assemble_merges (folder : Path) (above : path.parent? = some folder) :
    Merges disk arguments path settings (assemble disk arguments settings path).settings where
  commandSaid line said := by
    simp only [assemble, override, said, Text.words, List.map_map]
    rw [Text.splits_iff]
    simp [Function.comp_def]
  commandKept none := by simp only [assemble, override, none]
  targetSaid target said := by simp only [assemble, override, said, Option.getD_some]
  targetKept none := by simp only [assemble, override, none, Option.getD_none]
  stopAfterResolve := rfl
  rootsSaid said := by simp only [assemble, override, List.isEmpty_iff, said, if_false, rootsFrom]
  rootsKept none := by
    refine ⟨folder, above, ?_⟩
    simp only [assemble, override, none, List.isEmpty_nil, if_true, rootsFrom, above, Option.getD_some]
  extensions := rfl
  debounce := rfl

/-- There is only one way to put settings together. -/
theorem Merges.unique {other : Settings} (merges : Merges disk arguments path settings merged)
    (merges' : Merges disk arguments path settings other) : other = merged := by
  have command : other.worker.command = merged.worker.command := by
    cases said : arguments.worker with
    | none => rw [merges.commandKept said, merges'.commandKept said]
    | some line =>
      have words := (Text.splits_iff _ _).mp (merges.commandSaid line said)
      have words' := (Text.splits_iff _ _).mp (merges'.commandSaid line said)
      exact List.map_injective_iff.mpr (fun _ _ => String.toList_inj.mp) (words'.trans words.symm)
  have target : other.worker.target = merged.worker.target := by
    cases said : arguments.target with
    | none => rw [merges.targetKept said, merges'.targetKept said]
    | some target => rw [merges.targetSaid target said, merges'.targetSaid target said]
  have roots : other.watch.roots = merged.watch.roots := by
    by_cases said : arguments.roots = []
    · obtain ⟨folder, above, kept⟩ := merges.rootsKept said
      obtain ⟨folder', above', kept'⟩ := merges'.rootsKept said
      obtain rfl := Option.some.inj (above.symm.trans above')
      rw [kept, kept']
    · rw [merges.rootsSaid said, merges'.rootsSaid said]
  have stop := merges'.stopAfterResolve.trans merges.stopAfterResolve.symm
  have extensions := merges'.extensions.trans merges.extensions.symm
  have debounce := merges'.debounce.trans merges.debounce.symm
  rcases merged with ⟨⟨_, _, _⟩, ⟨_, _, _⟩⟩
  rcases other with ⟨⟨_, _, _⟩, ⟨_, _, _⟩⟩
  simp only at command target roots stop extensions debounce
  rw [command, target, roots, stop, extensions, debounce]

/-- What was put together is kept exactly when it is accepted. -/
theorem checked_ok_iff (project other : Project) :
    (checked project).value = .ok other ↔ project = other ∧ Settings.Usable project.settings := by
  rw [checked, ← Settings.check_ok_iff]
  cases project.settings.check <;> simp

theorem checked_error_iff (project : Project) (cause : SettingsError) :
    (checked project).value = .error (.unusable cause) ↔
      Settings.FirstAmiss project.settings cause := by
  rw [checked, ← Settings.check_error_iff]
  cases project.settings.check <;> simp

/-- **A loaded project is usable and says what its sources say.** Settings come from the settings
file that is found, where each is what the file gives or its default, or they are the defaults
when no file is found. The arguments take the place of some of them, and roots are normalized
from the folder they are written for.

The settings of a loaded project are put together so. They name a program and a target that are
not blank, at least one root, only absolute roots, and only extensions without dots. Conversely,
wherever settings come from, there is exactly one way to put them together with the arguments. A
project with them is loaded exactly when they meet all these conditions, and loading is refused
for the first one that they do not meet.

Proof: a file that can be read, and one that is missing below the current folder, has a folder
above it. So both bases for roots are there, and loading puts the settings together as said. What
it does then is decided by the check alone. -/
theorem loaded_settings_usable_and_merged (disk : Disk) (arguments : Arguments) :
    (∀ project, (load disk arguments).value = .ok project →
      ∃ path entries settings, Source disk arguments path entries settings ∧
        Settings.Given entries settings ∧ Merges disk arguments path settings project.settings ∧
        Settings.Usable project.settings ∧ ∀ root ∈ project.roots, root.isAbsolute = true) ∧
    ∀ path entries settings, Source disk arguments path entries settings →
      Settings.Given entries settings ∧
      ∃ merged, Merges disk arguments path settings merged ∧
        (∀ other, Merges disk arguments path settings other → other = merged) ∧
        (Settings.Usable merged ∨ ∃ cause, Settings.FirstAmiss merged cause) ∧
        (Settings.Usable merged ↔
          ∃ project, (load disk arguments).value = .ok project ∧ project.settings = merged) ∧
        ∀ cause, Settings.FirstAmiss merged cause ↔
          (load disk arguments).value = .error (.unusable cause) := by
  constructor
  · intro project loaded
    have absolute := (load_absolute disk arguments project loaded).1
    obtain ⟨path, entries, settings, source, rfl⟩ := source_of_load project loaded
    obtain ⟨folder, above⟩ := source.folder
    rw [source.load, checked_ok_iff] at loaded
    exact ⟨path, entries, settings, source, source.given, assemble_merges folder above, loaded.2, absolute⟩
  · intro path entries settings source
    obtain ⟨folder, above⟩ := source.folder
    have merges : Merges disk arguments path settings (assemble disk arguments settings path).settings :=
      assemble_merges folder above
    refine ⟨source.given, _, merges, fun other merges' => merges.unique merges',
      Settings.usable_or_amiss _, ?_, fun cause => ?_⟩
    · simp only [source.load, checked_ok_iff]
      constructor
      · exact fun usable => ⟨_, ⟨rfl, usable⟩, rfl⟩
      · rintro ⟨_, ⟨-, usable⟩, -⟩
        exact usable
    · rw [source.load, checked_error_iff]

end Project
end BuildWatch
