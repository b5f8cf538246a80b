import BuildWatch.Proofs.Roots.Subscribing
import BuildWatch.Watch.Watcher

/-!
# What a step of the watcher does

A step of the watcher does one of three things. It leaves the walks as they are, and then a
change that waited still waits and the wanted roots mean what they meant; or the wanted roots
change, and then it raises an event and touches nothing else; or it starts a walk of the
roots that are wanted after it.

So what follows a step is said once here, and never read off the single steps again.
-/

namespace BuildWatch

namespace Subscriptions

/-- What the wanted roots mean, in order. -/
def meanings (state : Subscriptions) : List (List Component) := state.roots.map Path.components

theorem meanings_congr (state other : Subscriptions) (same : state.wanted = other.wanted) :
    state.meanings = other.meanings := by
  rw [meanings, meanings, roots, roots, same]

end Subscriptions

namespace Watcher

/-- The watcher goes by the settings that are in force: it keeps their project, and wants the
roots of that project. -/
structure Aligned (state : Watcher) : Prop where
  current : ∃ current, state.current = some current ∧ current.project = state.project
  wanted : state.subscriptions.wanted = Path.setOf state.project.roots

/-- What a step of the watcher does to what was there before it. -/
inductive Effect (before after : Watcher) : Prop
  | waits (walks : after.walks = before.walks)
      (pending : before.debouncer.last.isSome = true → after.debouncer.last.isSome = true)
      (roots : Aligned before → after.subscriptions.meanings = before.subscriptions.meanings)
  | raises (walks : after.walks = before.walks)
      (pending : before.debouncer.last.isSome = true → after.debouncer.last.isSome = true)
      (raised : before.raised < after.raised)
  | starts (walks : after.walks = before.walks.start after.subscriptions.roots)

/-- What follows a step after which the files that were found may be out of date: a change
waits, an event was raised, or a walk was started. -/
def Alarmed (before after : Watcher) : Prop :=
  after.debouncer.last.isSome = true ∨ before.raised < after.raised ∨
    after.walks = before.walks.start after.subscriptions.roots

/-- A walk is started in the place of the active one, and no change waits any more. -/
theorem startWalk_value (state : Watcher) (reason : String) :
    (startWalk state reason).value =
      { state with
        debouncer := state.debouncer.clear
        walks := state.walks.start state.subscriptions.roots } := by
  cases active : state.walks.active <;>
    simp [startWalk, cancel, walk, active, Noted.andThen, Noted.quiet, Walks.start, Walks.cancel]

/-- A step that starts a walk after it changed none of them. -/
theorem startWalk_effect (before state : Watcher) (reason : String)
    (walks : state.walks = before.walks) :
    (startWalk state reason).value.walks =
      before.walks.start (startWalk state reason).value.subscriptions.roots := by
  rw [startWalk_value, walks]

theorem startWalk_aligned (state : Watcher) (reason : String) (aligned : Aligned state) :
    Aligned (startWalk state reason).value := by
  rw [startWalk_value]
  exact ⟨aligned.current, aligned.wanted⟩

/-- Whether two projects differ in the folders they watch. -/
def RootsDiffer (old new : Project) : Prop :=
  ∃ path : Path, path.memberOf old.roots ≠ path.memberOf new.roots

/-- The difference of the wanted roots is empty when both projects watch the same folders. -/
theorem between_setOf_iff (old new : Project) :
    (RootsDiff.between (Path.setOf old.roots) (Path.setOf new.roots)).isEmpty = true ↔
      ¬ RootsDiffer old new := by
  rw [RootsDiff.isEmpty_iff, RootsDiffer]
  simp only [(Path.setOf_meanings _).2]
  constructor
  · rintro same ⟨path, different⟩
    exact different (Bool.eq_iff_iff.mpr (by rw [Path.memberOf_iff, Path.memberOf_iff, same]))
  · intro same meaning
    have equal (path : Path) : path.components ∈ old.roots.map Path.components ↔
        path.components ∈ new.roots.map Path.components := by
      rw [← Path.memberOf_iff, ← Path.memberOf_iff, ← Bool.eq_iff_iff]
      exact not_not.mp fun different => same ⟨path, different⟩
    constructor <;> intro member <;> obtain ⟨path, held, rfl⟩ := List.mem_map.mp member
    · exact (equal path).mp (List.mem_map_of_mem held)
    · exact (equal path).mpr (List.mem_map_of_mem held)

/-- The watcher after it took a project over, before it may start a walk. -/
def adopted (around : Surroundings) (state : Watcher) (current : Current) : Watcher :=
  (updateRoots around
    { state with
      project := current.project
      current := some current
      debouncer := state.debouncer.setWindow current.project.settings.watch.debounce }
    current.project.roots).value.2

/-- The difference that a new project makes to the wanted roots. -/
def adoptedDiff (state : Watcher) (current : Current) : RootsDiff :=
  RootsDiff.between state.subscriptions.wanted (Path.setOf current.project.roots)

theorem adopt_value (around : Surroundings) (state : Watcher) (current : Current) :
    (adopt around state current).value =
      if (adoptedDiff state current).isEmpty && (state.project.settings.watch.extensions !=
          current.project.settings.watch.extensions)
        then (startWalk (adopted around state current) "extensions changed").value
        else adopted around state current := by
  exact apply_ite Noted.value _ _ _

/-- A project that is taken over leaves the walks and the waiting changes as they are. -/
theorem adopted_keeps (around : Surroundings) (state : Watcher) (current : Current) :
    (adopted around state current).walks = state.walks ∧
      (adopted around state current).debouncer.last = state.debouncer.last ∧
      (adopted around state current).raised =
        if (adoptedDiff state current).isEmpty then state.raised else state.raised + 1 :=
  ⟨rfl, rfl, rfl⟩

theorem adopted_aligned (around : Surroundings) (state : Watcher) (current : Current) :
    Aligned (adopted around state current) := ⟨⟨current, rfl, rfl⟩, rfl⟩

theorem adopt_aligned (around : Surroundings) (state : Watcher) (current : Current) :
    Aligned (adopt around state current).value := by
  rw [adopt_value]
  split_ifs
  · exact startWalk_aligned _ _ (adopted_aligned around state current)
  · exact adopted_aligned around state current

/-- The wanted roots mean what they meant when a new project watches the same folders. -/
theorem adopted_meanings (around : Surroundings) (state : Watcher) (current : Current)
    (aligned : Aligned state) (same : (adoptedDiff state current).isEmpty = true) :
    (adopted around state current).subscriptions.meanings = state.subscriptions.meanings := by
  rw [adoptedDiff, RootsDiff.isEmpty_iff] at same
  refine (Path.sort_meanings _ _ ?_ (Path.setOf_meanings current.project.roots).1 same).symm
  rw [aligned.wanted]
  exact (Path.setOf_meanings _).1

theorem adopt_effect (around : Surroundings) (state : Watcher) (current : Current) :
    Effect state (adopt around state current).value := by
  obtain ⟨walks, last, raised⟩ := adopted_keeps around state current
  have pending : state.debouncer.last.isSome = true →
      (adopted around state current).debouncer.last.isSome = true := by
    intro waits
    rwa [last]
  rw [adopt_value]
  split_ifs with restart
  · exact Effect.starts (startWalk_effect state _ _ walks)
  · by_cases same : (adoptedDiff state current).isEmpty = true
    · exact Effect.waits walks pending fun aligned =>
        adopted_meanings around state current aligned same
    · exact Effect.raises walks pending (by rw [raised, if_neg same]; omega)

/-- A project that watches other folders, or selects other files, does not pass unnoticed. -/
theorem adopt_alarmed (around : Surroundings) (state : Watcher) (current : Current)
    (aligned : Aligned state)
    (differs : RootsDiffer state.project current.project ∨
      state.project.settings.watch.extensions ≠ current.project.settings.watch.extensions) :
    Alarmed state (adopt around state current).value := by
  obtain ⟨walks, -, raised⟩ := adopted_keeps around state current
  rw [adopt_value]
  split_ifs with restart
  · exact Or.inr (Or.inr (startWalk_effect state _ _ walks))
  · have moved : ¬ (adoptedDiff state current).isEmpty = true := by
      intro same
      rcases differs with roots | extensions
      · rw [adoptedDiff, aligned.wanted, between_setOf_iff] at same
        exact same roots
      · exact restart (by simp [same, extensions])
    exact Or.inr (Or.inl (by rw [raised, if_neg moved]; omega))

/-- A new project that the settings file has is taken over. -/
theorem reload_adopts (disk : Files.Disk) (around : Surroundings) (state : Watcher)
    (old new : Current) (current : state.current = some old)
    (read : (old.reload disk).value = .ok (some new)) :
    (reload disk around state).value = (adopt around state new).value := by
  simp [reload, current, Noted.andThen, read]

/-- Reading the settings again is without effect, or finds a new project to take over. -/
theorem reload_value (disk : Files.Disk) (around : Surroundings) (state : Watcher) :
    (reload disk around state).value = state ∨
      ∃ old new, state.current = some old ∧ (old.reload disk).value = .ok (some new) ∧
        (reload disk around state).value = (adopt around state new).value := by
  cases current : state.current with
  | none => exact Or.inl (by simp [reload, current])
  | some old =>
    cases read : (old.reload disk).value with
    | error fault => exact Or.inl (by simp [reload, current, Noted.andThen, read])
    | ok found =>
      cases found with
      | none => exact Or.inl (by simp [reload, current, Noted.andThen, read])
      | some new =>
        exact Or.inr ⟨old, new, rfl, read, reload_adopts disk around state old new current read⟩

theorem reload_effect (disk : Files.Disk) (around : Surroundings) (state : Watcher) :
    Effect state (reload disk around state).value := by
  rcases reload_value disk around state with same | ⟨old, new, -, -, same⟩
  · rw [same]
    exact Effect.waits rfl id fun _ => rfl
  · rw [same]
    exact adopt_effect around state new

theorem reload_aligned (disk : Files.Disk) (around : Surroundings) (state : Watcher)
    (aligned : Aligned state) : Aligned (reload disk around state).value := by
  rcases reload_value disk around state with same | ⟨old, new, -, -, same⟩
  · rwa [same]
  · rw [same]
    exact adopt_aligned around state new

/-- Settings that come into force do not pass unnoticed, if they watch other folders or select
other files. -/
theorem reload_alarmed (disk : Files.Disk) (around : Surroundings) (state : Watcher)
    (aligned : Aligned state) (old new : Current) (current : state.current = some old)
    (read : (old.reload disk).value = .ok (some new))
    (differs : RootsDiffer old.project new.project ∨
      old.project.settings.watch.extensions ≠ new.project.settings.watch.extensions) :
    Alarmed state (reload disk around state).value := by
  obtain ⟨known, there, project⟩ := aligned.current
  obtain rfl : known = old := Option.some.inj (there.symm.trans current)
  rw [reload_adopts disk around state known new current read]
  exact adopt_alarmed around state new aligned (project ▸ differs)

/-- A change that is not hidden altogether waits. -/
theorem change_alarmed (now : Nat) (state : Watcher) (paths : List Path)
    (visible : paths = [] ∨ ∃ path ∈ paths, Path.isHiddenUnder state.subscriptions.roots path = false) :
    (change now state paths).debouncer.last.isSome = true := by
  have counts : ((paths.filter (!Path.isHiddenUnder state.subscriptions.roots ·)).isEmpty &&
      !paths.isEmpty) = false := by
    rcases visible with rfl | ⟨path, member, shown⟩
    · rfl
    · have kept : path ∈ paths.filter (!Path.isHiddenUnder state.subscriptions.roots ·) := by
        simp [member, shown]
      rw [List.isEmpty_eq_false_iff.mpr (List.ne_nil_of_mem kept), Bool.false_and]
  rw [change, counts]
  rfl

theorem change_effect (now : Nat) (state : Watcher) (paths : List Path) :
    Effect state (change now state paths) := by
  rw [change]
  split_ifs
  · exact Effect.waits rfl id fun _ => rfl
  · exact Effect.waits rfl (fun _ => rfl) fun _ => rfl

theorem change_aligned (now : Nat) (state : Watcher) (paths : List Path) (aligned : Aligned state) :
    Aligned (change now state paths) := by
  rw [change]
  split_ifs
  · exact aligned
  · exact ⟨aligned.current, aligned.wanted⟩

/-- After the subscriptions were looked after, a walk is started or the changes go on waiting. -/
theorem tickIn_value (around : Surroundings) (now : Nat) (state : Watcher) :
    (∃ waiting reason, (tickIn around now state).value =
      (startWalk
        { state with
          subscriptions := (state.subscriptions.maintain around).after
          debouncer := waiting } reason).value) ∨
    (state.subscriptions.maintain around).result = false ∧ (tickIn around now state).value =
      { state with subscriptions := (state.subscriptions.maintain around).after } := by
  cases appeared : (state.subscriptions.maintain around).result with
  | true =>
    refine Or.inl ⟨state.debouncer, "root appeared", ?_⟩
    simp [tickIn, Noted.andThen, appeared]
  | false =>
    obtain ⟨found, waiting, taken⟩ : ∃ found waiting, state.debouncer.take now = (found, waiting) :=
      ⟨_, _, rfl⟩
    cases found with
    | none =>
      refine Or.inr ⟨rfl, ?_⟩
      simp [tickIn, Noted.andThen, appeared, taken, Noted.quiet]
    | some paths =>
      refine Or.inl ⟨waiting, "files changed", ?_⟩
      simp [tickIn, Noted.andThen, appeared, taken]

theorem tickIn_effect (around : Surroundings) (now : Nat) (state : Watcher) :
    Effect state (tickIn around now state).value := by
  rcases tickIn_value around now state with ⟨waiting, reason, same⟩ | ⟨-, same⟩
  · rw [same]
    exact Effect.starts (startWalk_effect state _ _ rfl)
  · rw [same]
    exact Effect.waits rfl id fun _ =>
      Subscriptions.meanings_congr _ _ (Subscriptions.maintain_wanted around state.subscriptions)

theorem tickIn_aligned (around : Surroundings) (now : Nat) (state : Watcher) (aligned : Aligned state) :
    Aligned (tickIn around now state).value := by
  have wanted : (state.subscriptions.maintain around).after.wanted =
      Path.setOf state.project.roots :=
    (Subscriptions.maintain_wanted around state.subscriptions).trans aligned.wanted
  rcases tickIn_value around now state with ⟨waiting, reason, same⟩ | ⟨-, same⟩
  · rw [same]
    exact startWalk_aligned _ _ ⟨aligned.current, wanted⟩
  · rw [same]
    exact ⟨aligned.current, wanted⟩

/-- A root that appeared does not pass unnoticed. -/
theorem tickIn_alarmed (around : Surroundings) (now : Nat) (state : Watcher)
    (appeared : (state.subscriptions.maintain around).result = true) :
    Alarmed state (tickIn around now state).value := by
  rcases tickIn_value around now state with ⟨waiting, reason, same⟩ | ⟨quiet, -⟩
  · rw [same]
    exact Or.inr (Or.inr (startWalk_effect state _ _ rfl))
  · simp [appeared] at quiet

/-- The watcher of a project that was put in force wants its roots. -/
theorem startIn_aligned (around : Surroundings) (project : Project) (fingerprint : UInt64) :
    Aligned (startIn around project (some ⟨project, fingerprint⟩)).value :=
  ⟨⟨_, rfl, rfl⟩, rfl⟩

end Watcher
end BuildWatch
