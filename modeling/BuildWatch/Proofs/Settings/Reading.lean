import BuildWatch.Settings.Reader
import Mathlib.Data.List.Induction

/-!
# What a settings file gives

A section is read entry by entry, and each field has one place that only its own entries are put
into. So in the end a setting is what the last entry under its name gives, or what it was at the
beginning when there is no such entry. A section that is written as a list has the entries that
the names of the fields and the items make in pairs.
-/

namespace BuildWatch.Settings

/-- The entries of a section in any of its forms. -/
def fieldsOf (names : List String) : Toml.Value → Toml.Entries
  | .table _ entries => entries
  | .list items => names.zip items
  | _ => []

/-- The entries of the sections with a name. -/
def sectionOf (name : String) (names : List String) (entries : Toml.Entries) : Toml.Entries :=
  entries.flatMap fun entry => if entry.1 = name then fieldsOf names entry.2 else []

/-- A setting is what the last entry under its name gives, or its default when there is none. -/
def GivenOr {α : Type} (default : α) (entries : Toml.Entries) (field : String)
    (gives : Toml.Value → α → Prop) (setting : α) : Prop :=
  entries.reverse.lookup field = none ∧ setting = default ∨
    ∃ value, entries.reverse.lookup field = some value ∧ gives value setting

/-- Texts as a file lists them. -/
def listed (texts : List String) : Toml.Value := .list (texts.map .text)

/-- A value is how a setting is written in one way only. -/
def WrittenAs {α : Type} (written : α → Toml.Value) (value : Toml.Value) (setting : α) : Prop :=
  value = written setting

/-- A value lists the texts of paths. -/
def ListsPaths (value : Toml.Value) (paths : List Path) : Prop :=
  ∃ texts, value = listed texts ∧ paths = texts.map .ofText

theorem listsPaths_listed (texts : List String) :
    ListsPaths (listed texts) (texts.map .ofText) := ⟨texts, rfl, rfl⟩

/-- The entries about the worker. -/
def workerEntries : Toml.Entries → Toml.Entries :=
  sectionOf "worker" (SettingsField.worker.map SettingsField.name)

/-- The entries about what is watched. -/
def watchEntries : Toml.Entries → Toml.Entries :=
  sectionOf "watch" (SettingsField.watch.map SettingsField.name)

/-- Every setting is what a file gives for it, or its default. -/
structure Given (entries : Toml.Entries) (settings : Settings) : Prop where
  command : GivenOr [] (workerEntries entries) "command" (WrittenAs listed) settings.worker.command
  target : GivenOr "js" (workerEntries entries) "target" (WrittenAs .text) settings.worker.target
  stopAfterResolve : GivenOr true (workerEntries entries) "stop_after_resolve" (WrittenAs .flag)
    settings.worker.stopAfterResolve
  roots : GivenOr [⟨"."⟩] (watchEntries entries) "roots" ListsPaths settings.watch.roots
  extensions : GivenOr [] (watchEntries entries) "extensions" (WrittenAs listed)
    settings.watch.extensions
  debounce : GivenOr 300 (watchEntries entries) "debounce_ms"
    (WrittenAs fun time : Nat => .integer time) settings.watch.debounce

section Sections

variable {σ α : Type} {fields : List (SettingsField σ)} {field : String} {held : σ → α}
  {gives : Toml.Value → α → Prop}

/-- A place of a section that one field is put into, and no other. -/
structure Column (fields : List (SettingsField σ)) (field : String) (held : σ → α)
    (gives : Toml.Value → α → Prop) : Prop where
  taken : ∀ above state value next, takeEntry above fields state (field, value) = some next →
    gives value (held next.1)
  kept : ∀ above state name value next, name ≠ field →
    takeEntry above fields state (name, value) = some next → held next.1 = held state.1

/-- In the end a place holds what the last entry of its field gives, or what it held before. -/
theorem Column.taken_in (column : Column fields field held gives) (above : String)
    (entries : Toml.Entries) (start final : Partly σ)
    (read : entries.foldlM (takeEntry above fields) start = some final) :
    GivenOr (held start.1) entries field gives (held final.1) := by
  induction entries using List.reverseRecOn generalizing final with
  | nil =>
    obtain rfl := Option.some.inj read
    exact Or.inl ⟨rfl, rfl⟩
  | append_singleton before last inductionHypothesis =>
    obtain ⟨name, value⟩ := last
    rw [List.foldlM_append, Option.bind_eq_bind, Option.bind_eq_some_iff] at read
    obtain ⟨state, earlier, own⟩ := read
    rw [List.foldlM_cons, Option.bind_eq_bind, Option.bind_eq_some_iff] at own
    obtain ⟨next, own, done⟩ := own
    obtain rfl := Option.some.inj done
    rw [GivenOr, List.reverse_append, List.reverse_singleton, List.singleton_append, List.lookup_cons]
    by_cases same : name = field
    · subst same
      rw [beq_self_eq_true]
      exact Or.inr ⟨value, rfl, column.taken above state value next own⟩
    · rw [beq_eq_false_iff_ne.mpr (Ne.symm same), column.kept above state name value next same own]
      exact inductionHypothesis state earlier

/-- A section is read by its entries, whichever form it has. -/
theorem readSection_entries (own : ∀ field ∈ fields, fields.find? (·.name = field.name) = some field)
    (name : String) (start : σ) (value : Toml.Value) (final : Partly σ)
    (read : readSection name fields start value = some final) :
    ∃ state, (fieldsOf (fields.map SettingsField.name) value).foldlM (takeEntry (name ++ ".") fields)
      (start, []) = some state ∧ state.1 = final.1 := by
  cases value with
  | table origin entries => exact ⟨final, read, rfl⟩
  | list items =>
    rw [readSection, Option.map_eq_some_iff] at read
    obtain ⟨draft, read, rfl⟩ := read
    refine ⟨(draft, []), ?_, rfl⟩
    have pairs : (fields.map SettingsField.name).zip items =
        (fields.zip items).map fun pair => (pair.1.name, pair.2) := by
      rw [List.zip_map_left]
      rfl
    have among : ∀ pair ∈ fields.zip items, pair.1 ∈ fields := fun pair member =>
      (List.of_mem_zip member).1
    rw [fieldsOf, pairs, List.foldlM_map]
    generalize fields.zip items = pairs at read among
    induction pairs generalizing start with
    | nil => exact congrArg (Option.map (·, [])) read
    | cons pair rest inductionHypothesis =>
      obtain ⟨first, others⟩ := List.forall_mem_cons.mp among
      rw [List.foldlM_cons, Option.bind_eq_bind, Option.bind_eq_some_iff] at read ⊢
      obtain ⟨next, put, later⟩ := read
      refine ⟨(next, []), ?_, inductionHypothesis next later others⟩
      simp only [takeEntry, own pair.1 first, put, Option.map_some]
  | moment =>
    obtain rfl := Option.some.inj read
    exact ⟨_, rfl, rfl⟩
  | _ => simp [readSection] at read

/-- A part of the settings that the sections with one name are read into, and no others. -/
structure Part (name : String) (fields : List (SettingsField σ)) (part : Settings → σ) : Prop where
  own : ∀ state value next, takeSection state (name, value) = some next →
    ∃ passed, readSection name fields (part state.1) value = some (part next.1, passed)
  kept : ∀ state other value next, other ≠ name → takeSection state (other, value) = some next →
    part next.1 = part state.1

theorem worker_part : Part "worker" SettingsField.worker Settings.worker where
  own state value next taken := by
    simp only [takeSection, Option.map_eq_some_iff] at taken
    obtain ⟨⟨worker, passed⟩, read, rfl⟩ := taken
    exact ⟨passed, read⟩
  kept state other value next apart taken := by
    unfold takeSection at taken
    split at taken
    · rename_i same
      exact absurd same apart
    · obtain ⟨_, _, rfl⟩ := Option.map_eq_some_iff.mp taken
      rfl
    · obtain rfl := Option.some.inj taken
      rfl

theorem watch_part : Part "watch" SettingsField.watch Settings.watch where
  own state value next taken := by
    simp only [takeSection, Option.map_eq_some_iff] at taken
    obtain ⟨⟨watch, passed⟩, read, rfl⟩ := taken
    exact ⟨passed, read⟩
  kept state other value next apart taken := by
    unfold takeSection at taken
    split at taken
    · obtain ⟨_, _, rfl⟩ := Option.map_eq_some_iff.mp taken
      rfl
    · rename_i same
      exact absurd same apart
    · obtain rfl := Option.some.inj taken
      rfl

/-- In the end a setting is what the last entry of its field gives, over all sections with the
name of its part, or its default. -/
theorem Column.given {name : String} {part : Settings → σ} (column : Column fields field held gives)
    (sections : Part name fields part)
    (own : ∀ field ∈ fields, fields.find? (·.name = field.name) = some field)
    (entries : Toml.Entries) (final : Partly Settings) (read : ofEntries entries = some final) :
    GivenOr (held (part {})) (sectionOf name (fields.map SettingsField.name) entries) field gives
      (held (part final.1)) := by
  rw [ofEntries] at read
  induction entries using List.reverseRecOn generalizing final with
  | nil =>
    obtain rfl := Option.some.inj read
    exact Or.inl ⟨rfl, rfl⟩
  | append_singleton before last inductionHypothesis =>
    obtain ⟨other, value⟩ := last
    rw [List.foldlM_append, Option.bind_eq_bind, Option.bind_eq_some_iff] at read
    obtain ⟨state, earlier, taken⟩ := read
    rw [List.foldlM_cons, Option.bind_eq_bind, Option.bind_eq_some_iff] at taken
    obtain ⟨next, taken, done⟩ := taken
    obtain rfl := Option.some.inj done
    have above := inductionHypothesis state earlier
    rw [sectionOf, List.flatMap_append, List.flatMap_singleton] at *
    by_cases same : other = name
    · subst same
      obtain ⟨passed, read⟩ := sections.own state value next taken
      obtain ⟨draft, folded, ends⟩ := readSection_entries own other _ value _ read
      have within := column.taken_in _ _ _ _ folded
      rw [ends] at within
      rw [if_pos rfl, GivenOr, List.reverse_append, List.lookup_append]
      rcases within with ⟨none, unchanged⟩ | ⟨value, given, meant⟩
      · rw [none, Option.none_or, unchanged]
        exact above
      · rw [given, Option.some_or]
        exact Or.inr ⟨value, rfl, meant⟩
    · rw [if_neg same, List.append_nil, sections.kept state other value next same taken]
      exact above

/-- A place belongs to a field when that one puts into it what it is given, and the others leave it
alone. -/
theorem Column.of (named : field ∈ fields.map SettingsField.name)
    (each : ∀ own ∈ fields, ∀ value draft next, own.put value draft = some next →
      (own.name = field → gives value (held next)) ∧ (own.name ≠ field → held next = held draft)) :
    Column fields field held gives := by
  have known (name : String) (own : SettingsField σ)
      (found : fields.find? (·.name = name) = some own) : own ∈ fields ∧ own.name = name :=
    ⟨List.mem_of_find?_eq_some found, by simpa using List.find?_some found⟩
  refine ⟨fun above state value next taken => ?_, fun above state name value next apart taken => ?_⟩
  · rw [takeEntry] at taken
    split at taken
    · rename_i own found
      obtain ⟨member, same⟩ := known field own found
      obtain ⟨draft, put, rfl⟩ := Option.map_eq_some_iff.mp taken
      exact (each own member value state.1 draft put).1 same
    · rename_i unfound
      obtain ⟨own, member, same⟩ := List.mem_map.mp named
      exact absurd (by simpa using same) (List.find?_eq_none.mp unfound own member)
  · rw [takeEntry] at taken
    split at taken
    · rename_i own found
      obtain ⟨member, rfl⟩ := known name own found
      obtain ⟨draft, put, rfl⟩ := Option.map_eq_some_iff.mp taken
      exact (each own member value state.1 draft put).2 apart
    · obtain rfl := Option.some.inj taken
      rfl

theorem texts?_eq_some_iff (value : Toml.Value) (texts : List String) :
    SettingsField.texts? value = some texts ↔ value = listed texts := by
  cases value with
  | list items =>
    simp only [SettingsField.texts?, listed, Toml.Value.list.injEq]
    induction items generalizing texts with
    | nil => simp [eq_comm]
    | cons item rest inductionHypothesis =>
      rw [List.mapM_cons]
      cases item <;> cases texts <;> simp [Option.bind_eq_some_iff, inductionHypothesis, and_comm]
  | _ => simp [SettingsField.texts?, listed]

end Sections

/-- What the fields of the worker's section do. -/
theorem worker_put : ∀ field ∈ SettingsField.worker, ∀ value draft next,
    field.put value draft = some next →
      field.name = "command" ∧ (∃ texts, value = listed texts ∧ next = { draft with command := texts }) ∨
      field.name = "target" ∧ (∃ text, value = .text text ∧ next = { draft with target := text }) ∨
      field.name = "stop_after_resolve" ∧
        ∃ stop, value = .flag stop ∧ next = { draft with stopAfterResolve := stop } := by
  simp only [SettingsField.worker, List.forall_mem_cons, Option.map_eq_some_iff, texts?_eq_some_iff]
  grind

/-- What the fields of the watch section do. -/
theorem watch_put : ∀ field ∈ SettingsField.watch, ∀ value draft next,
    field.put value draft = some next →
      field.name = "roots" ∧
        (∃ texts, value = listed texts ∧ next = { draft with roots := texts.map .ofText }) ∨
      field.name = "extensions" ∧
        (∃ texts, value = listed texts ∧ next = { draft with extensions := texts }) ∨
      field.name = "debounce_ms" ∧
        ∃ time : Nat, value = .integer time ∧ next = { draft with debounce := time } := by
  simp only [SettingsField.watch, List.forall_mem_cons, Option.map_eq_some_iff, texts?_eq_some_iff]
  grind

theorem worker_columns :
    Column SettingsField.worker "command" WorkerSettings.command (WrittenAs listed) ∧
      Column SettingsField.worker "target" WorkerSettings.target (WrittenAs .text) ∧
      Column SettingsField.worker "stop_after_resolve" WorkerSettings.stopAfterResolve
        (WrittenAs .flag) := by
  refine ⟨.of (by decide) ?_, .of (by decide) ?_, .of (by decide) ?_⟩
  all_goals
    intro own member value draft next put
    rcases worker_put own member value draft next put with
      ⟨name, _, rfl, rfl⟩ | ⟨name, _, rfl, rfl⟩ | ⟨name, _, rfl, rfl⟩ <;> simp [name, WrittenAs]

theorem watch_columns :
    Column SettingsField.watch "roots" WatchSettings.roots ListsPaths ∧
      Column SettingsField.watch "extensions" WatchSettings.extensions (WrittenAs listed) ∧
      Column SettingsField.watch "debounce_ms" WatchSettings.debounce
        (WrittenAs fun time : Nat => .integer time) := by
  refine ⟨.of (by decide) ?_, .of (by decide) ?_, .of (by decide) ?_⟩
  all_goals
    intro own member value draft next put
    rcases watch_put own member value draft next put with
      ⟨name, _, rfl, rfl⟩ | ⟨name, _, rfl, rfl⟩ | ⟨name, _, rfl, rfl⟩ <;>
        simp [name, WrittenAs, listsPaths_listed]

/-- What is read from a file is what the file gives. -/
theorem ofEntries_given (entries : Toml.Entries) (settings : Settings) (passed : List String)
    (read : ofEntries entries = some (settings, passed)) : Given entries settings := by
  have worker : ∀ field ∈ SettingsField.worker,
      SettingsField.worker.find? (·.name = field.name) = some field := by
    simp [SettingsField.worker]
  have watch : ∀ field ∈ SettingsField.watch,
      SettingsField.watch.find? (·.name = field.name) = some field := by
    simp [SettingsField.watch]
  obtain ⟨command, target, stop⟩ := worker_columns
  obtain ⟨roots, extensions, debounce⟩ := watch_columns
  exact ⟨command.given worker_part worker entries _ read, target.given worker_part worker entries _ read,
    stop.given worker_part worker entries _ read, roots.given watch_part watch entries _ read,
    extensions.given watch_part watch entries _ read, debounce.given watch_part watch entries _ read⟩

end BuildWatch.Settings
