import BuildWatch.Proofs.Settings.Reading
import BuildWatch.Proofs.Toml.Keys

/-!
# What a settings file may hold besides

A key that has no meaning is reported, and reading goes on as if it were not there. So of a file
the fields of its sections matter, in their order, and what is left out of it otherwise is without
effect on the settings. A key is reported by its whole path; the keys within its own value are not.
-/

namespace BuildWatch.Settings

open Toml

/-- The entries of a table. -/
def inner : Value → Entries
  | .table _ entries => entries
  | _ => []

/-- The keys of a file and of the tables in it, with their values, in the order of the file. -/
def outerEntries (entries : Entries) : List (List String × Value) :=
  entries.flatMap fun (key, value) =>
    ([key], value) :: (inner value).map fun (field, content) => ([key, field], content)

/-- The keys of a file and of the tables in it, in its order. -/
def outerKeys (entries : Entries) : List (List String) := (outerEntries entries).map Prod.fst

/-- The sections a file may have. -/
def knownSections : List (List String) := [["worker"], ["watch"]]

/-- The fields that the sections may have. -/
def knownFields : List (List String) := [
  ["worker", "command"], ["worker", "target"], ["worker", "stop_after_resolve"],
  ["watch", "roots"], ["watch", "extensions"], ["watch", "debounce_ms"]]

/-- The keys a file may have. -/
def knownKeys : List (List String) := knownSections ++ knownFields

/-- A key that is not known, in a file or a section that is. -/
def Unknown (path : List String) : Prop :=
  path ∉ knownKeys ∧ path.dropLast ∈ [] :: knownSections

instance (path : List String) : Decidable (Unknown path) :=
  inferInstanceAs (Decidable (_ ∧ _))

/-- The keys of a file that are not known, in its order. -/
def unknownKeys (entries : Entries) : List (List String) :=
  (outerKeys entries).filter (Unknown ·)

/-- The fields that are known, with their values, in the order of the file. -/
def knownEntries (entries : Entries) : List (List String × Value) :=
  (outerEntries entries).filter (·.1 ∈ knownFields)

/-- The values that the known fields may have. -/
inductive Fits : List String → Value → Prop
  | command (texts : List String) : Fits ["worker", "command"] (listed texts)
  | target (text : String) : Fits ["worker", "target"] (.text text)
  | stopAfterResolve (stop : Bool) : Fits ["worker", "stop_after_resolve"] (.flag stop)
  | roots (texts : List String) : Fits ["watch", "roots"] (listed texts)
  | extensions (texts : List String) : Fits ["watch", "extensions"] (listed texts)
  | debounce (time : Nat) : Fits ["watch", "debounce_ms"] (.integer time)

/-- The sections of a file are tables. -/
def SectionsAreTables (entries : Entries) : Prop :=
  ∀ key value, (key, value) ∈ entries → [key] ∈ knownSections →
    ∃ origin content, value = .table origin content

/-- A file from which all keys that are not known were taken away, and nothing else. -/
structure Cleared (entries rest : Entries) : Prop where
  known : knownEntries rest = knownEntries entries
  unknown : unknownKeys rest = []
  tables : SectionsAreTables rest

/-- A table with some of its entries only. -/
def keep (kept : String → Bool) : Value → Value
  | .table origin entries => .table origin (entries.filter fun entry => kept entry.1)
  | value => value

/-- A file without the keys that are not known. -/
def withoutUnknown (entries : Entries) : Entries :=
  entries.flatMap fun (key, value) =>
    if Unknown [key] then [] else [(key, keep (fun field => ¬ Unknown [key, field]) value)]

/-- A path as it is reported. -/
def dotted (path : List String) : String := ".".intercalate path

/-- Put a value in the place of a field. -/
def putField {σ : Type} (fields : List (SettingsField σ)) (draft : σ) (entry : String × Value) :
    Option σ :=
  (fields.find? (·.name = entry.1)).bind fun field => field.put entry.2 draft

/-- Put the value of a known field in its place. -/
def putKnown (settings : Settings) : List String × Value → Option Settings
  | (["worker", field], value) =>
    (putField SettingsField.worker settings.worker (field, value)).map fun worker =>
      { settings with worker := worker }
  | (["watch", field], value) =>
    (putField SettingsField.watch settings.watch (field, value)).map fun watch =>
      { settings with watch := watch }
  | _ => none

/-- What is put in the place of a worker's field is a value that the field may have. -/
theorem worker_fits (draft next : WorkerSettings) (field : String) (value : Value)
    (given : putField SettingsField.worker draft (field, value) = some next) :
    Fits ["worker", field] value := by
  obtain ⟨own, found, put⟩ := Option.bind_eq_some_iff.mp given
  obtain rfl : own.name = field := by simpa using List.find?_some found
  rcases worker_put own (List.mem_of_find?_eq_some found) value draft next put with
    ⟨name, texts, rfl, -⟩ | ⟨name, text, rfl, -⟩ | ⟨name, stop, rfl, -⟩ <;> rw [name]
  · exact .command texts
  · exact .target text
  · exact .stopAfterResolve stop

/-- What is put in the place of a watch field is a value that the field may have. -/
theorem watch_fits (draft next : WatchSettings) (field : String) (value : Value)
    (given : putField SettingsField.watch draft (field, value) = some next) :
    Fits ["watch", field] value := by
  obtain ⟨own, found, put⟩ := Option.bind_eq_some_iff.mp given
  obtain rfl : own.name = field := by simpa using List.find?_some found
  rcases watch_put own (List.mem_of_find?_eq_some found) value draft next put with
    ⟨name, texts, rfl, -⟩ | ⟨name, texts, rfl, -⟩ | ⟨name, time, rfl, -⟩ <;> rw [name]
  · exact .roots texts
  · exact .extensions texts
  · exact .debounce time

/-- A value is put in the place of a field exactly when the field is known and may have it. -/
theorem putKnown_iff (settings : Settings) (entry : List String × Value) :
    (∃ next, putKnown settings entry = some next) ↔ Fits entry.1 entry.2 := by
  constructor
  · rintro ⟨next, put⟩
    unfold putKnown at put
    split at put
    · obtain ⟨draft, given, -⟩ := Option.map_eq_some_iff.mp put
      exact worker_fits _ draft _ _ given
    · obtain ⟨draft, given, -⟩ := Option.map_eq_some_iff.mp put
      exact watch_fits _ draft _ _ given
    · simp at put
  · obtain ⟨path, value⟩ := entry
    have read (texts : List String) :
        SettingsField.texts? (.list (texts.map .text)) = some texts :=
      (texts?_eq_some_iff _ _).mpr rfl
    intro fits
    cases fits <;> simp [putKnown, putField, SettingsField.worker, SettingsField.watch, read]

/-- Known fields are put in their places exactly when all of them have values that they may have. -/
theorem foldlM_putKnown_iff (entries : List (List String × Value)) (settings : Settings) :
    (∃ final, entries.foldlM putKnown settings = some final) ↔
      ∀ entry ∈ entries, Fits entry.1 entry.2 := by
  induction entries generalizing settings with
  | nil => simp
  | cons entry rest inductionHypothesis =>
    rw [List.forall_mem_cons, ← putKnown_iff settings, List.foldlM_cons]
    cases putKnown settings entry with
    | none => simp
    | some next => simpa using inductionHypothesis next

theorem knownEntries_eq_flatMap (entries : Entries) :
    knownEntries entries = entries.flatMap fun entry => knownEntries [entry] := by
  simp only [knownEntries, outerEntries, List.filter_flatMap, List.flatMap_singleton]

theorem outerKeys_eq_flatMap (entries : Entries) :
    outerKeys entries = entries.flatMap fun entry => outerKeys [entry] := by
  simp only [outerKeys, outerEntries, List.map_flatMap, List.flatMap_singleton]

theorem unknownKeys_eq_flatMap (entries : Entries) :
    unknownKeys entries = entries.flatMap fun entry => unknownKeys [entry] := by
  simp only [unknownKeys, outerKeys, outerEntries, List.map_flatMap, List.filter_flatMap,
    List.flatMap_singleton]

theorem section_known_iff (key : String) : [key] ∈ knownKeys ↔ [key] ∈ knownSections := by
  simp [knownKeys, knownFields]

theorem field_known_iff (key field : String) :
    [key, field] ∈ knownKeys ↔ [key, field] ∈ knownFields := by
  simp [knownKeys, knownSections]

/-- In a file only the sections are known. -/
theorem unknown_section_iff (key : String) : Unknown [key] ↔ [key] ∉ knownSections := by
  simp [Unknown, section_known_iff]

/-- In a section only its fields are known. -/
theorem unknown_field_iff {key : String} (known : [key] ∈ knownSections) (field : String) :
    Unknown [key, field] ↔ [key, field] ∉ knownFields := by
  simp [Unknown, field_known_iff, known]

/-- There are known fields in the sections only. -/
theorem no_field {key : String} (other : [key] ∉ knownSections) (field : String) :
    [key, field] ∉ knownFields := by
  have apart : key ≠ "worker" ∧ key ≠ "watch" := by simpa [knownSections] using other
  simp [knownFields, apart]

theorem knownEntries_singleton (key : String) (value : Value) :
    knownEntries [(key, value)] =
      ((inner value).map fun entry => ([key, entry.1], entry.2)).filter (·.1 ∈ knownFields) := by
  have short : [key] ∉ knownFields := by simp [knownFields]
  rw [knownEntries, outerEntries, List.flatMap_singleton,
    List.filter_cons_of_neg (by simpa using short)]

theorem outerKeys_singleton (key : String) (value : Value) :
    outerKeys [(key, value)] = [key] :: (inner value).map fun entry => [key, entry.1] := by
  simp [outerKeys, outerEntries, Function.comp_def]

theorem unknownKeys_singleton (key : String) (value : Value) :
    unknownKeys [(key, value)] = (if Unknown [key] then [[key]] else []) ++
      ((inner value).map fun entry => [key, entry.1]).filter (Unknown ·) := by
  rw [unknownKeys, outerKeys_singleton, List.filter_cons]
  by_cases unknown : Unknown [key] <;> simp [unknown]

theorem flatMap_ite {ι κ : Type} (chosen : ι → Prop) [DecidablePred chosen] (make : ι → κ)
    (items : List ι) : (items.flatMap fun item => if chosen item then [make item] else []) =
      (items.filter (chosen ·)).map make := by
  induction items with
  | nil => rfl
  | cons item rest inductionHypothesis =>
    rw [List.flatMap_cons, inductionHypothesis]
    by_cases own : chosen item <;> simp [own]

/-- A section is read by its fields, which are the known ones, and is one place of the settings. -/
structure Place {σ : Type} (name : String) (fields : List (SettingsField σ)) (part : Settings → σ)
    (change : σ → Settings → Settings) : Prop where
  known : [name] ∈ knownSections
  field_iff : ∀ key, [name, key] ∈ knownFields ↔ ∃ field ∈ fields, field.name = key
  taken : ∀ settings passed value, takeSection (settings, passed) (name, value) =
    (readSection name fields (part settings) value).map fun (draft, more) =>
      (change draft settings, passed ++ more)
  placed : ∀ settings field value, putKnown settings ([name, field], value) =
    (putField fields (part settings) (field, value)).map (change · settings)
  part_change : ∀ draft settings, part (change draft settings) = draft
  change_change : ∀ draft other settings,
    change draft (change other settings) = change draft settings
  change_part : ∀ settings, change (part settings) settings = settings

theorem worker_place : Place "worker" SettingsField.worker Settings.worker
    fun draft settings => { settings with worker := draft } where
  known := by decide
  field_iff key := by simp [knownFields, SettingsField.worker, eq_comm]
  taken _ _ _ := rfl
  placed _ _ _ := rfl
  part_change _ _ := rfl
  change_change _ _ _ := rfl
  change_part _ := rfl

theorem watch_place : Place "watch" SettingsField.watch Settings.watch
    fun draft settings => { settings with watch := draft } where
  known := by decide
  field_iff key := by simp [knownFields, SettingsField.watch, eq_comm]
  taken _ _ _ := rfl
  placed _ _ _ := rfl
  part_change _ _ := rfl
  change_change _ _ _ := rfl
  change_part _ := rfl

/-- Steps that put what they know in place and report the rest do so over a whole list. -/
theorem foldlM_reporting {σ ι κ : Type} (step : Partly σ → ι → Option (Partly σ))
    (put : σ → κ → Option σ) (known : ι → List κ) (reported : ι → List String) (items : List ι)
    (each : ∀ item ∈ items, ∀ draft passed, step (draft, passed) item =
      ((known item).foldlM put draft).map fun next => (next, passed ++ reported item))
    (draft : σ) (passed : List String) :
    items.foldlM step (draft, passed) = ((items.flatMap known).foldlM put draft).map fun next =>
      (next, passed ++ items.flatMap reported) := by
  induction items generalizing draft passed with
  | nil => simp
  | cons item rest inductionHypothesis =>
    obtain ⟨own, others⟩ := List.forall_mem_cons.mp each
    rw [List.foldlM_cons, own, List.flatMap_cons, List.flatMap_cons, List.foldlM_append]
    cases (known item).foldlM put draft with
    | none => rfl
    | some next => simp [inductionHypothesis others]

namespace Place

variable {σ : Type} {name : String} {fields : List (SettingsField σ)} {part : Settings → σ}
  {change : σ → Settings → Settings} (place : Place name fields part change)

include place

/-- A key of a section is a field of it, or is reported. -/
theorem takeEntry_eq (draft : σ) (passed : List String) (entry : String × Value) :
    takeEntry (name ++ ".") fields (draft, passed) entry =
      ((if [name, entry.1] ∈ knownFields then [entry] else []).foldlM (putField fields) draft).map
        fun next =>
          (next, passed ++ if [name, entry.1] ∉ knownFields then [dotted [name, entry.1]] else []) := by
  by_cases known : [name, entry.1] ∈ knownFields
  · obtain ⟨field, member, same⟩ := (place.field_iff entry.1).mp known
    obtain ⟨own, found⟩ := Option.isSome_iff_exists.mp
      (List.find?_isSome (p := (·.name = entry.1)).mpr ⟨field, member, by simpa using same⟩)
    simp [takeEntry, putField, known, found]
  · have unfound : fields.find? (·.name = entry.1) = none := by
      simpa using fun field member same => known ((place.field_iff entry.1).mpr ⟨field, member, same⟩)
    simp only [takeEntry, unfound, if_neg known, if_pos known]
    rfl

/-- Fields are put into the section's place of the settings. -/
theorem foldlM_putKnown (content : Entries) (settings : Settings) :
    (content.map fun entry => ([name, entry.1], entry.2)).foldlM putKnown settings =
      (content.foldlM (putField fields) (part settings)).map (change · settings) := by
  induction content generalizing settings with
  | nil => simp [place.change_part]
  | cons entry rest inductionHypothesis =>
    rw [List.map_cons, List.foldlM_cons, List.foldlM_cons, place.placed]
    cases putField fields (part settings) entry with
    | none => rfl
    | some draft => simp [inductionHypothesis, place.part_change, place.change_change]

/-- A section that is a table gives the known fields in it, and its other keys are reported. -/
theorem takeSection_table (origin : Origin) (content : Entries) (settings : Settings)
    (passed : List String) :
    takeSection (settings, passed) (name, .table origin content) =
      ((knownEntries [(name, .table origin content)]).foldlM putKnown settings).map fun next =>
        (next, passed ++ (unknownKeys [(name, .table origin content)]).map dotted) := by
  have known : ¬ Unknown [name] := fun unknown => (unknown_section_iff name).mp unknown place.known
  rw [place.taken, readSection,
    foldlM_reporting _ (putField fields) _ _ content fun entry _ draft passed =>
      place.takeEntry_eq draft passed entry,
    flatMap_ite, flatMap_ite, knownEntries_singleton, unknownKeys_singleton, if_neg known,
    List.filter_map, List.filter_map]
  simp only [Function.comp_def, inner, unknown_field_iff place.known]
  rw [place.foldlM_putKnown, List.map_id'', Option.map_map, Option.map_map]
  · simp [Function.comp_def]
  · exact fun _ => rfl

end Place

section Sections

variable {entries : Entries}

/-- A key that is no section has no known fields, and of it and of what is in its value only the
key itself is reported. -/
theorem keys_other (key : String) (value : Value) (other : [key] ∉ knownSections) :
    knownEntries [(key, value)] = [] ∧ unknownKeys [(key, value)] = [[key]] := by
  have below (field : String) : ¬ Unknown [key, field] := by simp [Unknown, other]
  rw [knownEntries_singleton, unknownKeys_singleton, if_pos ((unknown_section_iff key).mpr other)]
  simp [List.filter_map, Function.comp_def, no_field other, below]

/-- One entry of a file gives its known fields, and the other keys are reported. -/
theorem takeSection_eq (key : String) (value : Value)
    (table : [key] ∈ knownSections → ∃ origin content, value = .table origin content)
    (settings : Settings) (passed : List String) :
    takeSection (settings, passed) (key, value) =
      ((knownEntries [(key, value)]).foldlM putKnown settings).map fun next =>
        (next, passed ++ (unknownKeys [(key, value)]).map dotted) := by
  by_cases known : [key] ∈ knownSections
  · obtain ⟨origin, content, rfl⟩ := table known
    obtain rfl | rfl : key = "worker" ∨ key = "watch" := by simpa [knownSections] using known
    · exact worker_place.takeSection_table origin content settings passed
    · exact watch_place.takeSection_table origin content settings passed
  · obtain ⟨none, own⟩ := keys_other key value known
    have apart : key ≠ "worker" ∧ key ≠ "watch" := by simpa [knownSections] using known
    rw [none, own]
    unfold takeSection
    split
    · rename_i same
      exact absurd same apart.1
    · rename_i same
      exact absurd same apart.2
    · rfl

/-- Settings come from the known fields of a file, one after the other, and the other keys are
reported. -/
theorem ofEntries_eq (tables : SectionsAreTables entries) :
    ofEntries entries = ((knownEntries entries).foldlM putKnown {}).map fun settings =>
      (settings, (unknownKeys entries).map dotted) := by
  rw [ofEntries, foldlM_reporting takeSection putKnown (fun entry => knownEntries [entry])
    (fun entry => (unknownKeys [entry]).map dotted) entries fun entry member =>
      takeSection_eq entry.1 entry.2 (tables entry.1 entry.2 member),
    ← knownEntries_eq_flatMap, ← List.map_flatMap, ← unknownKeys_eq_flatMap]
  rfl

theorem inner_keep (kept : String → Bool) (value : Value) :
    inner (keep kept value) = (inner value).filter fun entry => kept entry.1 := by
  cases value <;> simp [inner, keep]

/-- Taking away the keys that are not known takes nothing else from an entry. -/
theorem keys_kept (key : String) (value : Value) :
    knownEntries (withoutUnknown [(key, value)]) = knownEntries [(key, value)] ∧
      unknownKeys (withoutUnknown [(key, value)]) = [] ∧
      outerKeys (withoutUnknown [(key, value)]) =
        (outerKeys [(key, value)]).filter (· ∈ knownKeys) := by
  by_cases known : [key] ∈ knownSections
  · have kept : withoutUnknown [(key, value)] =
        [(key, keep (fun field => ¬ Unknown [key, field]) value)] := by
      simp [withoutUnknown, unknown_section_iff, known]
    rw [kept, knownEntries_singleton, knownEntries_singleton, unknownKeys_singleton,
      outerKeys_singleton, outerKeys_singleton, inner_keep,
      if_neg (mt (unknown_section_iff key).mp (not_not.mpr known))]
    simp [List.filter_map, List.filter_filter, Function.comp_def, unknown_field_iff known,
      section_known_iff, field_known_iff, known]
  · have nothing : withoutUnknown [(key, value)] = [] := by
      simp [withoutUnknown, unknown_section_iff, known]
    rw [nothing, (keys_other key value known).1, outerKeys_singleton]
    refine ⟨rfl, rfl, ?_⟩
    simp [List.filter_map, Function.comp_def, section_known_iff, field_known_iff, known,
      no_field known, outerKeys, outerEntries]

theorem withoutUnknown_eq_flatMap (entries : Entries) :
    withoutUnknown entries = entries.flatMap fun entry => withoutUnknown [entry] := by
  simp only [withoutUnknown, List.flatMap_singleton]

/-- Without the keys that are not known a file has the same fields, and nothing to report. -/
theorem cleared_withoutUnknown (tables : SectionsAreTables entries) :
    Cleared entries (withoutUnknown entries) where
  known := by
    rw [knownEntries_eq_flatMap, withoutUnknown_eq_flatMap, List.flatMap_assoc,
      knownEntries_eq_flatMap entries]
    refine List.flatMap_congr fun entry _ => ?_
    rw [← knownEntries_eq_flatMap]
    exact (keys_kept entry.1 entry.2).1
  unknown := by
    rw [unknownKeys_eq_flatMap, withoutUnknown_eq_flatMap, List.flatMap_assoc, List.flatMap_eq_nil_iff]
    intro entry _
    rw [← unknownKeys_eq_flatMap]
    exact (keys_kept entry.1 entry.2).2.1
  tables key value member known := by
    obtain ⟨⟨other, before⟩, within, member⟩ := List.mem_flatMap.mp member
    by_cases unknown : Unknown [other]
    · simp [unknown] at member
    · obtain ⟨rfl, rfl⟩ : key = other ∧ value = keep (fun field => ¬ Unknown [other, field]) before := by
        simpa [unknown] using member
      obtain ⟨origin, content, rfl⟩ := tables key before within known
      exact ⟨origin, _, rfl⟩

/-- What is left are the keys that are known. -/
theorem outerKeys_withoutUnknown (entries : Entries) :
    outerKeys (withoutUnknown entries) = (outerKeys entries).filter (· ∈ knownKeys) := by
  rw [outerKeys_eq_flatMap, withoutUnknown_eq_flatMap, List.flatMap_assoc,
    outerKeys_eq_flatMap entries, List.filter_flatMap]
  refine List.flatMap_congr fun entry _ => ?_
  rw [← outerKeys_eq_flatMap]
  exact (keys_kept entry.1 entry.2).2.2

/-- The keys of a file and of the tables in it are different from each other. -/
theorem outerKeys_nodup (distinct : Distinct entries) : (outerKeys entries).Nodup := by
  rw [outerKeys_eq_flatMap, List.nodup_flatMap]
  constructor
  · rintro ⟨key, value⟩ member
    have within : ((inner value).map Prod.fst).Nodup := by
      cases value with
      | table origin content =>
        exact (distinct.proper _ member content (List.mem_singleton_self _)).keys
      | _ => simp [inner]
    have fields : ((inner value).map fun entry => [key, entry.1]).Nodup := by
      have renamed := within.map (f := fun field => [key, field]) fun _ _ same => by simpa using same
      rwa [List.map_map] at renamed
    rw [outerKeys_singleton, List.nodup_cons]
    exact ⟨by simp, fields⟩
  · -- Each path starts with the key of its own entry.
    have head (entry : String × Value) (path : List String) (own : path ∈ outerKeys [entry]) :
        path.head? = some entry.1 := by
      rw [outerKeys_singleton] at own
      rcases List.mem_cons.mp own with rfl | within
      · rfl
      · obtain ⟨field, -, rfl⟩ := List.mem_map.mp within
        rfl
    refine (List.pairwise_map.mp distinct.keys).imp fun {first second} apart path one other => ?_
    exact apart (Option.some.inj ((head first path one).symm.trans (head second path other)))

end Sections

theorem read_eq {text : String} {entries : Entries} (reads : Toml.read text = .ok entries) :
    read text = (ofEntries entries).elim (.error .mistyped) .ok := by
  simp only [read, reads]
  cases ofEntries entries <;> rfl

/-- **Keys that are not known are reported and otherwise without effect.** Let the sections of a
file be tables. Without the keys that are not known the file gives the same settings, or cannot be
read either; and so does every other file with the same fields and only known keys. A file is read
exactly when the known fields have values that they may have, and then the paths of just the other
keys are reported, in the order of the file and each once.

Proof: a file is read by putting its known fields in their places one after the other, and the
keys that are not known are collected on the way. No key stands twice in a table that was read. -/
theorem unknown_keys_without_effect (text : String) (entries : Entries)
    (reads : Toml.read text = .ok entries) (tables : SectionsAreTables entries) :
    outerKeys (withoutUnknown entries) = (outerKeys entries).filter (· ∈ knownKeys) ∧
      Cleared entries (withoutUnknown entries) ∧
      (∀ rest, Cleared entries rest →
        (ofEntries rest).map Prod.fst = (ofEntries entries).map Prod.fst ∧
        ∀ other, Toml.read other = .ok rest → (read other).map Prod.fst = (read text).map Prod.fst) ∧
      ((∃ result, read text = .ok result) ↔ ∀ entry ∈ knownEntries entries, Fits entry.1 entry.2) ∧
      (∀ settings passed, read text = .ok (settings, passed) →
        passed = (unknownKeys entries).map dotted) ∧
      (unknownKeys entries).Sublist (outerKeys entries) ∧ (unknownKeys entries).Nodup := by
  have same (rest : Entries) (cleared : Cleared entries rest) :
      (ofEntries rest).map Prod.fst = (ofEntries entries).map Prod.fst := by
    rw [ofEntries_eq tables, ofEntries_eq cleared.tables, cleared.known, Option.map_map,
      Option.map_map]
    rfl
  refine ⟨outerKeys_withoutUnknown entries, cleared_withoutUnknown tables,
    fun rest cleared => ⟨same rest cleared, fun other readsOther => ?_⟩, ?_, ?_, List.filter_sublist,
    (outerKeys_nodup (Toml.read_distinct text entries reads)).filter _⟩
  · rw [read_eq reads, read_eq readsOther]
    have equal := same rest cleared
    cases whole : ofEntries entries <;> cases left : ofEntries rest <;> simp_all [Except.map]
  · rw [read_eq reads, ofEntries_eq tables, ← foldlM_putKnown_iff _ {}]
    cases (knownEntries entries).foldlM putKnown {} <;> simp
  · intro settings passed read
    rw [read_eq reads, ofEntries_eq tables] at read
    cases done : (knownEntries entries).foldlM putKnown {} with
    | none => simp [done] at read
    | some final =>
      rw [done] at read
      exact (Prod.mk.inj (Except.ok.inj read)).2.symm

/-- A table among the worker's fields is reported, but not what is in it. -/
theorem port_and_env_reported :
    ∃ settings, read "port = 1\n[worker]\ncommand = ['skewc']\nenv.cores = 4\n" =
      .ok (settings, ["port", "worker.env"]) := by
  have reads : Toml.read "port = 1\n[worker]\ncommand = ['skewc']\nenv.cores = 4\n" =
      .ok [("port", .integer 1), ("worker", .table .header
        [("command", .list [.text "skewc"]), ("env", .table .dotted [("cores", .integer 4)])])] := rfl
  have tables : SectionsAreTables [("port", .integer 1), ("worker", .table .header
      [("command", .list [.text "skewc"]), ("env", .table .dotted [("cores", .integer 4)])])] := by
    intro key value member known
    simp only [List.mem_cons, Prod.mk.injEq, List.not_mem_nil, or_false] at member
    rcases member with ⟨rfl, rfl⟩ | ⟨rfl, rfl⟩
    · simp [knownSections] at known
    · exact ⟨_, _, rfl⟩
  obtain ⟨-, -, -, accepted, reported, -⟩ := unknown_keys_without_effect _ _ reads tables
  have done : ∃ result,
      read "port = 1\n[worker]\ncommand = ['skewc']\nenv.cores = 4\n" = .ok result := by
    refine accepted.mpr fun entry member => ?_
    obtain rfl : entry = (["worker", "command"], listed ["skewc"]) := List.mem_singleton.mp member
    exact .command ["skewc"]
  obtain ⟨⟨settings, passed⟩, done⟩ := done
  refine ⟨settings, ?_⟩
  rw [done, reported settings passed done]
  rfl

end BuildWatch.Settings
