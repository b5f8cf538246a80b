import BuildWatch.Proofs.Watch.Agreement

/-!
# No change is lost

The files that the worker was last told of are out of date when a visible file changes, when
the roots change, when somebody asks for it, when a root appears, and when other settings come
into force that watch other folders or select other files. From then on an order is owed,
about a walk that is started at that moment or later.

What is owed is never forgotten: the change waits, or changed roots wait in the queue, or such
a walk is active, or the order was sent. So when there is nothing left to do the last order
that was sent is about such a walk: it names the files which that walk found and which the
settings in force select. This holds in whatever order the sources are asked.
-/

namespace BuildWatch.Loop

/-- Whether a happening puts the files that were found out of date. -/
def Invalidates (loop : Loop) : Happening → Prop
  | .event _ => False
  | .request => False
  | .within _ _ => False
  | .wake => False
  | .ask .events moment =>
    match loop.events with
    | [] => False
    | .changed paths :: _ =>
      paths = [] ∨ ∃ path ∈ paths, path.isHiddenUnder loop.watcher.subscriptions.roots = false
    | .rootsChanged :: _ => True
    | .settingsChanged :: _ =>
      ∃ old new, loop.watcher.current = some old ∧ (old.reload moment.disk).value = .ok (some new) ∧
        (Watcher.RootsDiffer old.project new.project ∨
          old.project.settings.watch.extensions ≠ new.project.settings.watch.extensions)
  | .ask .requests _ => loop.requests ≠ 0
  | .ask .walk _ => False
  | .ask .clock moment => (loop.watcher.subscriptions.maintain moment.around).result = true

/-- Whether an order about a walk of a number, or of a later one, was sent or is owed. -/
def Covered (number : Nat) (loop : Loop) : Prop :=
  (∃ later files, (later, .compile files) ∈ loop.sent ∧ number ≤ later) ∨
    loop.watcher.debouncer.last.isSome = true ∨ .rootsChanged ∈ loop.events ∨
    ∃ walk, loop.active? = some walk ∧ number ≤ loop.watcher.walks.earlier.length

/-- A walk that a step starts has a number that no walk had before. -/
theorem covered_starts (number : Nat) (loop : Loop) (left : List WatchEvent) (after : Watcher)
    (roots : List Path) (starts : after.walks = loop.watcher.walks.start roots)
    (known : number ≤ loop.started) : Covered number (loop.onward left after) := by
  obtain ⟨active, length⟩ := Walks.start_active loop.watcher.walks roots
  refine Or.inr (Or.inr (Or.inr ⟨Walk.start roots, ?_, ?_⟩))
  · rw [active?, onward, starts, active]
  · rw [onward, starts, length]
    exact known

/-- After an alarm an order is owed. -/
theorem covered_alarmed (loop : Loop) (left : List WatchEvent) (after : Watcher)
    (alarmed : Watcher.Alarmed loop.watcher after) :
    Covered loop.started (loop.onward left after) := by
  rcases alarmed with waits | raised | starts
  · exact Or.inr (Or.inl waits)
  · refine Or.inr (Or.inr (Or.inl ?_))
    rw [onward, List.mem_append, List.mem_replicate]
    exact Or.inr ⟨by omega, rfl⟩
  · exact covered_starts _ loop left after _ starts le_rfl

/-- A step of the watcher forgets nothing that is owed, if it takes changed roots out of the
queue only to start a walk. -/
theorem covered_onward (number : Nat) (loop : Loop) (left : List WatchEvent) (after : Watcher)
    (effect : Watcher.Effect loop.watcher after)
    (kept : .rootsChanged ∈ loop.events →
      .rootsChanged ∈ left ∨ after.walks = loop.watcher.walks.start after.subscriptions.roots)
    (known : number ≤ loop.started) (covered : Covered number loop) :
    Covered number (loop.onward left after) := by
  have started (roots : List Path) (starts : after.walks = loop.watcher.walks.start roots) :=
    covered_starts number loop left after roots starts known
  have queued (within : .rootsChanged ∈ loop.events) : Covered number (loop.onward left after) := by
    rcases kept within with stays | starts
    · exact Or.inr (Or.inr (Or.inl (List.mem_append_left _ stays)))
    · exact started _ starts
  have unchanged (walks : after.walks = loop.watcher.walks)
      (pending : loop.watcher.debouncer.last.isSome = true → after.debouncer.last.isSome = true) :
      Covered number (loop.onward left after) := by
    rcases covered with sent | waits | within | ⟨walk, active, later⟩
    · exact Or.inl sent
    · exact Or.inr (Or.inl (pending waits))
    · exact queued within
    · refine Or.inr (Or.inr (Or.inr ⟨walk, ?_, ?_⟩))
      · rw [active?, onward, walks]
        exact active
      · rw [onward, walks]
        exact later
  cases effect with
  | waits walks pending _ => exact unchanged walks pending
  | raises walks pending _ => exact unchanged walks pending
  | starts walks => exact started _ walks

/-- What is owed stays owed until it is sent, whatever source is asked. -/
theorem covered_asked (number : Nat) (loop after : Loop) (source : Source)
    (asked : Asked loop source after) (known : number ≤ loop.started)
    (covered : Covered number loop) : Covered number after := by
  cases asked with
  | passes next empty => exact covered
  | steps requests left after effect goes kept =>
    exact covered_onward number { loop with requests := requests } left after effect kept known covered
  | sends walk files asked active answers =>
    rcases covered with ⟨later, files, member, after⟩ | pending | within | ⟨other, -, later⟩
    · exact Or.inl ⟨later, files, List.mem_append_left _ member, after⟩
    · exact Or.inr (Or.inl pending)
    · exact Or.inr (Or.inr (Or.inl within))
    · exact Or.inl ⟨_, _, List.mem_append_right _ (List.mem_singleton_self _), later⟩

theorem covered_follow (number : Nat) (loop : Loop) (happening : Happening) (sound : Sound loop)
    (known : number ≤ loop.started) (covered : Covered number loop) :
    Covered number (loop.follow happening) := by
  cases happening with
  | event event =>
    rcases covered with sent | waits | within | active
    · exact Or.inl sent
    · exact Or.inr (Or.inl waits)
    · exact Or.inr (Or.inr (Or.inl (List.mem_append_left _ within)))
    · exact Or.inr (Or.inr (Or.inr active))
  | request | wake => exact covered
  | ask source moment =>
    exact covered_asked number loop _ source (ask_asked loop moment source sound.live) known covered
  | within other happening =>
    rcases covered with sent | waits | within | ⟨walk, active, later⟩
    · exact Or.inl sent
    · exact Or.inr (Or.inl waits)
    · exact Or.inr (Or.inr (Or.inl within))
    · refine Or.inr (Or.inr (Or.inr ?_))
      by_cases own : other = loop.watcher.walks.earlier.length
      · refine ⟨walk.happen happening, ?_, ?_⟩
        · have there : loop.watcher.walks.active = some walk := active
          simp [follow, active?, Walks.happenAt, own, there]
        · rwa [follow, Walks.happenAt_length]
      · refine ⟨walk, ?_, ?_⟩
        · simpa [follow, active?, Walks.happenAt, own] using active
        · rwa [follow, Walks.happenAt_length]

/-- When the files get out of date, an order about a walk that starts then or later is owed. -/
theorem covered_invalidated (loop : Loop) (happening : Happening) (sound : Sound loop)
    (invalidates : Invalidates loop happening) : Covered loop.started (loop.follow happening) := by
  match happening with
  | .ask .events moment =>
    rw [follow, ask]
    rw [Invalidates] at invalidates
    split at invalidates
    · exact invalidates.elim
    · rename_i paths rest queue
      rw [queue]
      exact covered_alarmed loop rest _ (Or.inl (Watcher.change_alarmed moment.now _ paths invalidates))
    · rename_i rest queue
      rw [queue]
      exact covered_starts _ loop rest _ _ (Watcher.startWalk_effect loop.watcher _ _ rfl) le_rfl
    · rename_i rest queue
      rw [queue]
      obtain ⟨old, new, current, read, differs⟩ := invalidates
      exact covered_alarmed loop rest _ (Watcher.reload_alarmed moment.disk moment.around loop.watcher
        sound.aligned old new current read differs)
  | .ask .requests moment =>
    rw [follow, ask, if_neg invalidates]
    exact covered_starts _ { loop with requests := loop.requests - 1 } _ _ _
      (Watcher.startWalk_effect loop.watcher _ _ rfl) le_rfl
  | .ask .clock moment =>
    exact covered_alarmed loop _ _
      (Watcher.tickIn_alarmed moment.around moment.now loop.watcher invalidates)
  | .ask .walk _ | .event _ | .request | .within _ _ | .wake => exact invalidates.elim

theorem covered_run (number : Nat) (loop : Loop) (happenings : List Happening) (sound : Sound loop)
    (known : number ≤ loop.started) (covered : Covered number loop) :
    Covered number (loop.run happenings) := by
  induction happenings generalizing loop with
  | nil => exact covered
  | cons happening rest inductionHypothesis =>
    exact inductionHypothesis (loop.follow happening) (sound_follow loop happening sound)
      (known.trans (started_follow loop happening sound))
      (covered_follow number loop happening sound known covered)

/-- The order that was sent last is about the walk of the greatest number. -/
theorem last_sent (loop : Loop) (sound : Sound loop) (number : Nat) (order : Order)
    (member : (number, order) ∈ loop.sent) :
    ∃ last files, loop.sent.getLast? = some (last, .compile files) ∧ number ≤ last := by
  obtain ⟨⟨last, lastOrder⟩, final⟩ : ∃ pair, loop.sent.getLast? = some pair :=
    ⟨_, List.getLast?_eq_some_getLast (List.ne_nil_of_mem member)⟩
  obtain ⟨-, files, rfl⟩ := sound.bound last lastOrder (List.mem_of_getLast? final)
  refine ⟨last, files, final, ?_⟩
  obtain ⟨front, split⟩ := List.getLast?_eq_some_iff.mp final
  have growing := sound.growing
  rw [split, List.map_append, List.pairwise_append] at growing
  rw [split, List.mem_append, List.mem_singleton] at member
  rcases member with before | same
  · exact (growing.2.2 number (List.mem_map_of_mem before) last (by simp)).le
  · exact (Prod.mk.inj same).1.le

/-- At some point of a run the walk of a number was active and had answered, and these are the files
of its answer that the settings in force then select. -/
def Selected (first : Loop) (happenings : List Happening) (number : Nat) (files : List Path) : Prop :=
  ∃ before after walk found current, happenings = before ++ after ∧
    (first.run before).watcher.walks.earlier.length = number ∧
    (first.run before).active? = some walk ∧ walk.answer = some found ∧
    (first.run before).watcher.current = some current ∧
    files = found.filter (selects current.project.settings.watch.extensions)

theorem Selected.append {first : Loop} {happenings : List Happening} {number : Nat} {files : List Path}
    (selected : Selected first happenings number files) (more : List Happening) :
    Selected first (happenings ++ more) number files := by
  obtain ⟨before, after, walk, found, current, rfl, about⟩ := selected
  exact ⟨before, after ++ more, walk, found, current, List.append_assoc before after more, about⟩

/-- Every order that was sent is about the selected files of the walk of its number. -/
theorem sent_selected (first : Loop) (sound : Sound first) (fresh : first.sent = [])
    (happenings : List Happening) (number : Nat) (files : List Path)
    (member : (number, .compile files) ∈ (first.run happenings).sent) :
    Selected first happenings number files := by
  induction happenings using List.reverseRecOn with
  | nil =>
    rw [run, List.foldl_nil, fresh] at member
    exact absurd member List.not_mem_nil
  | append_singleton happenings happening inductionHypothesis =>
    have soundBefore := sound_run first happenings sound
    have last : first.run (happenings ++ [happening]) = (first.run happenings).follow happening :=
      List.foldl_append
    rw [last] at member
    rcases follow_sends _ happening soundBefore with same | ⟨-, walk, found, active, answers, sends⟩
    · exact (inductionHypothesis (same ▸ member)).append [happening]
    · rw [sends] at member
      rcases List.mem_append.mp member with before | new
      · exact (inductionHypothesis before).append [happening]
      · obtain ⟨rfl, order⟩ := Prod.mk.inj (List.mem_singleton.mp new)
        obtain ⟨current, loaded, project⟩ := soundBefore.aligned.current
        refine ⟨happenings, [happening], walk, found, current, rfl, rfl, active, answers, loaded, ?_⟩
        rw [Order.compile.inj order, project]
        rfl

/-- **No change is lost.** Whatever arrives in whatever order, whatever happens to the walks and
whatever source is asked when: once a happening has put the files out of date, an order about a
walk that was started then or later was sent, or a change waits, or changed roots are queued, or
such a walk is active. And as soon as nothing is queued, no change waits and no walk is active,
the last order that was sent is about such a walk. An order about a walk is about those files of
its answer that the settings in force select.

Proof: the happening makes an order owed, and no happening after it forgets what is owed; the
numbers of the walks grow with the orders, so the last order has the greatest number. -/
theorem no_change_lost (around : Surroundings) (project : Project) (fingerprint : UInt64)
    (early : List WatchEvent) (before : List Happening) (happening : Happening)
    (after : List Happening)
    (invalidates : Invalidates ((start around project fingerprint early).run before) happening) :
    let since := ((start around project fingerprint early).run before).started
    let loop := (start around project fingerprint early).run (before ++ happening :: after)
    let selected := Selected (start around project fingerprint early) (before ++ happening :: after)
    ((∃ number files, (number, .compile files) ∈ loop.sent ∧ since ≤ number ∧ selected number files) ∨
      loop.watcher.debouncer.last.isSome = true ∨ .rootsChanged ∈ loop.events ∨
      ∃ walk, loop.active? = some walk ∧ since ≤ loop.watcher.walks.earlier.length) ∧
    (loop.events = [] → loop.requests = 0 → loop.watcher.debouncer.last = none →
      loop.active? = none →
      ∃ number files, loop.sent.getLast? = some (number, .compile files) ∧ since ≤ number ∧
        selected number files) := by
  intro since loop selected
  have first := sound_start around project fingerprint early
  have sound := sound_run _ before first
  have about (number : Nat) (files : List Path) (member : (number, .compile files) ∈ loop.sent) :
      selected number files := sent_selected _ first rfl _ number files member
  have owed := covered_invalidated _ happening sound invalidates
  have soundAfter := sound_follow _ happening sound
  have covered : Covered since loop := by
    have split : loop =
        (((start around project fingerprint early).run before).follow happening).run after := by
      simp [loop, run]
    rw [split]
    exact covered_run since _ after soundAfter (started_follow _ happening sound) owed
  constructor
  · rcases covered with ⟨number, files, member, later⟩ | onTheWay
    · exact Or.inl ⟨number, files, member, later, about number files member⟩
    · exact Or.inr onTheWay
  · intro empty _ quiet idle
    rcases covered with ⟨number, files, member, later⟩ | waits | within | ⟨walk, active, -⟩
    · obtain ⟨last, lastFiles, final, greater⟩ := last_sent loop (sound_run _ _ first) number _ member
      exact ⟨last, lastFiles, final, later.trans greater,
        about last lastFiles (List.mem_of_getLast? final)⟩
    · simp [quiet] at waits
    · simp [empty] at within
    · simp [idle] at active

/-- What happens when a file changes while the first walk of a project goes on: the change waits out
the quiet window, and a second walk takes the place of the first one. -/
def changedMeanwhile : List Happening :=
  [.ask .events (bareMoment 0), .event (.changed [⟨"a.sk"⟩])] ++ .ask .events (bareMoment 5) ::
    (.ask .clock (bareMoment 305) :: walking 1 ++ [.ask .walk (bareMoment 306)])

/-- The order that is sent then is about the files of the second walk. -/
theorem changed_file_compiled :
    ∃ number files,
      ((start (bareMoment 0).around bareProject 0 []).run changedMeanwhile).sent.getLast? =
        some (number, .compile files) ∧
      1 ≤ number ∧
      Selected (start (bareMoment 0).around bareProject 0 []) changedMeanwhile number files := by
  have queue : ((start (bareMoment 0).around bareProject 0 []).run
      [.ask .events (bareMoment 0), .event (.changed [⟨"a.sk"⟩])]).events = [.changed [⟨"a.sk"⟩]] := by
    decide +kernel
  have since : ((start (bareMoment 0).around bareProject 0 []).run
      [.ask .events (bareMoment 0), .event (.changed [⟨"a.sk"⟩])]).started = 1 := by decide +kernel
  have invalidates : Invalidates ((start (bareMoment 0).around bareProject 0 []).run
      [.ask .events (bareMoment 0), .event (.changed [⟨"a.sk"⟩])]) (.ask .events (bareMoment 5)) := by
    rw [Invalidates, queue]
    exact Or.inr ⟨⟨"a.sk"⟩, List.mem_singleton_self _, by decide +kernel⟩
  have sent := (no_change_lost (bareMoment 0).around bareProject 0 [] _ _
    (.ask .clock (bareMoment 305) :: walking 1 ++ [.ask .walk (bareMoment 306)]) invalidates).2
    (by decide +kernel) (by decide +kernel) (by decide +kernel) (by decide +kernel)
  rwa [since] at sent

end BuildWatch.Loop
