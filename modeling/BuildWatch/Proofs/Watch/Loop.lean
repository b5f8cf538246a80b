import BuildWatch.Proofs.Walk.Succession
import BuildWatch.Proofs.Watch.Effect

/-!
# The loop of the watcher

The watcher is run by a loop that asks four sources for something to do: the queue of
events, the requests to rebuild, the active walk, and the clock. Meanwhile events and
requests arrive, also while the loop is between two questions, and things happen to the
walks. An event that the watcher raises itself goes to the end of the queue.

The loop asks the sources in a fixed order, begins anew whenever there was something to do,
and begins anew after it waited. What does not depend on this order is said of loops that ask
in any order. A loop may stop anywhere: nothing is said of how often it asks.

Every walk has a number, which is how many walks were started before it. An order that is
sent is kept with the number of the walk whose files it is about.
-/

namespace BuildWatch

/-- What the loop asks for something to do, the first source first. -/
inductive Loop.Source where
  | events
  | requests
  | walk
  | clock
  deriving DecidableEq

/-- The outside at a moment: the files, what calls for subscriptions meet, and the time. -/
structure Loop.Moment where
  disk : Files.Disk
  around : Surroundings
  now : Nat

/-- The watcher in its loop: the events and the count of requests that are queued, the orders
that were sent, and the source that is to be asked next. -/
structure Loop where
  watcher : Watcher
  events : List WatchEvent
  requests : Nat := 0
  sent : List (Nat × Order) := []
  next : Loop.Source := .events

namespace Loop

/-- The loop of a watcher that just started. Some events may have come before its own. -/
def start (around : Surroundings) (project : Project) (fingerprint : UInt64)
    (early : List WatchEvent) : Loop :=
  let watcher := (Watcher.startIn around project (some ⟨project, fingerprint⟩)).value
  { watcher := watcher, events := early ++ List.replicate watcher.raised .rootsChanged }

/-- How many walks were started. -/
def started (loop : Loop) : Nat := loop.watcher.walks.all.length

/-- The active walk. -/
def active? (loop : Loop) : Option Walk := loop.watcher.walks.active

/-- Let the watcher handle an event. -/
def handled (moment : Moment) (watcher : Watcher) : WatchEvent → Watcher
  | .rootsChanged => watcher.handleRaised.value
  | .changed paths =>
    (watcher.handleIn moment.disk moment.around moment.now (.changed paths)).value
  | .settingsChanged =>
    (watcher.handleIn moment.disk moment.around moment.now .settingsChanged).value

/-- Begin anew after a step of the watcher, with the events that it raised at the end of those
left in the queue. -/
def onward (loop : Loop) (left : List WatchEvent) (after : Watcher) : Loop :=
  { loop with
    watcher := after
    events := left ++ List.replicate (after.raised - loop.watcher.raised) .rootsChanged
    next := .events }

/-- Ask a source, and do what is to do. -/
def ask (moment : Moment) (loop : Loop) : Source → Loop
  | .events =>
    match loop.events with
    | [] => { loop with next := .requests }
    | event :: rest => loop.onward rest (handled moment loop.watcher event)
  | .requests =>
    if loop.requests = 0 then { loop with next := .walk }
    else { loop with requests := loop.requests - 1 }.onward loop.events loop.watcher.rebuild.value
  | .walk =>
    match loop.watcher.collect.value with
    | (after, none) => { loop with watcher := after, next := .clock }
    | (after, some order) =>
      { loop with
        watcher := after
        sent := loop.sent ++ [(loop.watcher.walks.earlier.length, order)]
        next := .events }
  | .clock => loop.onward loop.events (loop.watcher.tickIn moment.around moment.now).value

/-- One thing that happens: an event or a request arrives, something happens to the walk of a
number, the loop asks a source, or it has waited and begins anew. -/
inductive Happening where
  | event (event : WatchEvent)
  | request
  | within (number : Nat) (happening : Walk.Happening)
  | ask (source : Source) (moment : Moment)
  | wake

/-- The loop after a happening. -/
def follow (loop : Loop) : Happening → Loop
  | .event event => { loop with events := loop.events ++ [event] }
  | .request => { loop with requests := loop.requests + 1 }
  | .within number happening =>
    { loop with
      watcher := { loop.watcher with walks := loop.watcher.walks.happenAt number happening } }
  | .ask source moment => loop.ask moment source
  | .wake => { loop with next := .events }

/-- The loop after some happenings. -/
def run (loop : Loop) (happenings : List Happening) : Loop := happenings.foldl follow loop

theorem handled_effect (moment : Moment) (watcher : Watcher) (event : WatchEvent) :
    Watcher.Effect watcher (handled moment watcher event) := by
  cases event with
  | changed paths => exact Watcher.change_effect moment.now watcher paths
  | rootsChanged => exact Watcher.Effect.starts (Watcher.startWalk_effect watcher _ _ rfl)
  | settingsChanged => exact Watcher.reload_effect moment.disk moment.around watcher

theorem handled_aligned (moment : Moment) (watcher : Watcher) (event : WatchEvent)
    (aligned : watcher.Aligned) : (handled moment watcher event).Aligned := by
  cases event with
  | changed paths => exact Watcher.change_aligned moment.now watcher paths aligned
  | rootsChanged => exact Watcher.startWalk_aligned _ _ ⟨aligned.current, aligned.wanted⟩
  | settingsChanged => exact Watcher.reload_aligned moment.disk moment.around watcher aligned

/-- What the watcher makes of the active walk: nothing as long as it has not answered, and then
an order about the selected ones of its files. -/
theorem collect_value (watcher : Watcher)
    (live : ∀ walk, watcher.walks.active = some walk → walk.Live) :
    watcher.collect.value = (watcher, none) ∨
    ∃ walk files, watcher.walks.active = some walk ∧ walk.answer = some files ∧
      watcher.collect.value =
        ({ watcher with walks := { earlier := watcher.walks.earlier ++ [walk], active := none } },
          some (.compile (files.filter watcher.project.selects))) := by
  rcases Walks.poll_eq watcher.walks live with ⟨waits, -⟩ | ⟨walk, files, active, answers, -, -, gives⟩
  · exact Or.inl (by simp [Watcher.collect, waits, Noted.quiet])
  · refine Or.inr ⟨walk, files, active, answers, ?_⟩
    simp [Watcher.collect, gives, Watcher.orderFor, Noted.andThen, Noted.quiet]

/-- What comes of asking a source. It has nothing to do, and the next one is asked; or the
watcher makes a step, and changed roots leave the queue only to start a walk; or the active walk
has answered, and its selected files are sent. -/
inductive Asked (loop : Loop) (source : Source) : Loop → Prop
  | passes (next : Source) (empty : source = .events → loop.events = []) :
      Asked loop source { loop with next := next }
  | steps (requests : Nat) (left : List WatchEvent) (after : Watcher)
      (effect : Watcher.Effect loop.watcher after)
      (aligned : loop.watcher.Aligned → after.Aligned)
      (kept : .rootsChanged ∈ loop.events →
        .rootsChanged ∈ left ∨ after.walks = loop.watcher.walks.start after.subscriptions.roots) :
      Asked loop source ({ loop with requests := requests }.onward left after)
  | sends (walk : Walk) (files : List Path) (asked : source = .walk)
      (active : loop.active? = some walk) (answers : walk.answer = some files) :
      Asked loop source
        { loop with
          watcher :=
            { loop.watcher with
              walks := { earlier := loop.watcher.walks.earlier ++ [walk], active := none } }
          sent := loop.sent ++ [(loop.watcher.walks.earlier.length,
            .compile (files.filter loop.watcher.project.selects))]
          next := .events }

/-- Every question to a source is answered in one of these ways. -/
theorem ask_asked (loop : Loop) (moment : Moment) (source : Source)
    (live : ∀ walk, loop.active? = some walk → walk.Live) :
    Asked loop source (loop.ask moment source) := by
  cases source with
  | events =>
    rw [ask]
    split
    · rename_i empty
      exact Asked.passes _ fun _ => empty
    · rename_i event rest queue
      refine Asked.steps loop.requests rest _ (handled_effect moment loop.watcher event)
        (handled_aligned moment loop.watcher event) fun within => ?_
      rw [queue, List.mem_cons] at within
      rcases within with rfl | within
      · exact Or.inr (Watcher.startWalk_effect loop.watcher _ _ rfl)
      · exact Or.inl within
  | requests =>
    rw [ask]
    split_ifs
    · exact Asked.passes _ (by simp)
    · exact Asked.steps _ loop.events _
        (Watcher.Effect.starts (Watcher.startWalk_effect loop.watcher _ _ rfl))
        (Watcher.startWalk_aligned _ _) Or.inl
  | clock =>
    exact Asked.steps loop.requests loop.events _
      (Watcher.tickIn_effect moment.around moment.now loop.watcher)
      (Watcher.tickIn_aligned moment.around moment.now loop.watcher) Or.inl
  | walk =>
    rcases collect_value loop.watcher live with waits | ⟨walk, files, active, answers, gives⟩
    · rw [ask, waits]
      exact Asked.passes _ (by simp)
    · rw [ask, gives]
      exact Asked.sends walk files rfl active answers

/-- What holds in every loop: the watcher goes by the settings in force, the active walk is
live, and the orders that were sent are to compile files of walks that are not active any more,
each of a later walk than the one before. -/
structure Sound (loop : Loop) : Prop where
  aligned : loop.watcher.Aligned
  live : ∀ walk, loop.active? = some walk → walk.Live
  growing : (loop.sent.map Prod.fst).Pairwise (· < ·)
  bound : ∀ number order, (number, order) ∈ loop.sent →
    number < loop.watcher.walks.earlier.length ∧ ∃ files, order = .compile files

/-- A step of the watcher leaves the walks as they are or starts one. -/
theorem effect_walks (before after : Watcher) (effect : Watcher.Effect before after) :
    after.walks = before.walks ∨ ∃ roots, after.walks = before.walks.start roots := by
  cases effect with
  | waits walks _ _ => exact Or.inl walks
  | raises walks _ _ => exact Or.inl walks
  | starts walks => exact Or.inr ⟨_, walks⟩

theorem sound_onward (loop : Loop) (left : List WatchEvent) (after : Watcher)
    (effect : Watcher.Effect loop.watcher after) (aligned : after.Aligned) (sound : Sound loop) :
    Sound (loop.onward left after) := by
  obtain ⟨-, live, growing, bound⟩ := sound
  rcases effect_walks loop.watcher after effect with same | ⟨roots, starts⟩
  · refine ⟨aligned, ?_, growing, ?_⟩
    · simpa [onward, active?, same] using live
    · simpa [onward, same] using bound
  · obtain ⟨active, length⟩ := Walks.start_active loop.watcher.walks roots
    refine ⟨aligned, ?_, growing, ?_⟩
    · intro walk there
      obtain rfl : Walk.start roots = walk := by simpa [onward, active?, starts, active] using there
      exact Walk.live_start roots
    · intro number order member
      obtain ⟨before, compiles⟩ := bound number order member
      rw [onward, starts, length, Walks.all_length]
      exact ⟨by omega, compiles⟩

theorem sound_asked (loop after : Loop) (source : Source) (asked : Asked loop source after)
    (sound : Sound loop) : Sound after := by
  obtain ⟨aligned, live, growing, bound⟩ := id sound
  cases asked with
  | passes next empty => exact ⟨aligned, live, growing, bound⟩
  | steps requests left after effect goes kept =>
    exact sound_onward { loop with requests := requests } left after effect (goes aligned)
      ⟨aligned, live, growing, bound⟩
  | sends walk files asked active answers =>
    refine ⟨⟨aligned.current, aligned.wanted⟩, by simp [active?], ?_, ?_⟩
    · rw [List.map_append, List.pairwise_append]
      refine ⟨growing, List.pairwise_singleton _ _, ?_⟩
      simp only [List.mem_map, List.map_cons, List.map_nil, List.mem_singleton]
      rintro number ⟨⟨other, order⟩, member, rfl⟩ last rfl
      exact (bound other order member).1
    · intro number order member
      rw [List.length_append, List.length_singleton]
      rcases List.mem_append.mp member with before | last
      · obtain ⟨earlier, compiles⟩ := bound number order before
        exact ⟨earlier.trans (Nat.lt_succ_self _), compiles⟩
      · obtain ⟨rfl, rfl⟩ := Prod.mk.inj (List.mem_singleton.mp last)
        exact ⟨Nat.lt_succ_self _, _, rfl⟩

theorem sound_follow (loop : Loop) (happening : Happening) (sound : Sound loop) :
    Sound (loop.follow happening) := by
  cases happening with
  | event event | request | wake => exact ⟨sound.aligned, sound.live, sound.growing, sound.bound⟩
  | ask source moment =>
    exact sound_asked loop _ source (ask_asked loop moment source sound.live) sound
  | within number happening =>
    refine ⟨⟨sound.aligned.current, sound.aligned.wanted⟩, ?_, sound.growing, ?_⟩
    · intro walk there
      simp only [follow, active?, Walks.happenAt] at there
      split_ifs at there with own
      · obtain ⟨old, active, rfl⟩ := Option.map_eq_some_iff.mp there
        exact Walk.live_happen old happening (sound.live old active)
      · exact sound.live walk there
    · intro other order member
      have before := sound.bound other order member
      rwa [follow, Walks.happenAt_length]

/-- Walks that were started stay counted. -/
theorem started_asked (loop after : Loop) (source : Source) (asked : Asked loop source after) :
    loop.started ≤ after.started := by
  cases asked with
  | passes next empty => exact le_rfl
  | steps requests left after effect goes kept =>
    rw [started, started, onward]
    rcases effect_walks loop.watcher after effect with same | ⟨roots, starts⟩
    · rw [same]
    · rw [starts, Walks.all_length (loop.watcher.walks.start roots), (Walks.start_active _ roots).2]
      omega
  | sends walk files asked active answers =>
    have there : loop.watcher.walks.active = some walk := active
    rw [started, started, Walks.all_length, Walks.all_length, there]
    simp

theorem started_follow (loop : Loop) (happening : Happening) (sound : Sound loop) :
    loop.started ≤ (loop.follow happening).started := by
  cases happening with
  | event event | request | wake => exact le_rfl
  | ask source moment => exact started_asked loop _ source (ask_asked loop moment source sound.live)
  | within number happening =>
    have same : (loop.watcher.walks.happenAt number happening).active.toList.length =
        loop.watcher.walks.active.toList.length := by
      cases active : loop.watcher.walks.active <;>
        by_cases own : number = loop.watcher.walks.earlier.length <;> simp [Walks.happenAt, active, own]
    rw [started, started, follow, Walks.all_length, Walks.all_length, Walks.happenAt_length, same]

/-- The loop of a watcher that just started is sound. -/
theorem sound_start (around : Surroundings) (project : Project) (fingerprint : UInt64)
    (early : List WatchEvent) : Sound (start around project fingerprint early) := by
  refine ⟨Watcher.startIn_aligned around project fingerprint, ?_, List.Pairwise.nil, ?_⟩
  · intro walk active
    simp [start, active?, Watcher.startIn, Watcher.updateRoots, Noted.andThen, Noted.quiet] at active
  · intro number order member
    simp [start] at member

theorem sound_run (loop : Loop) (happenings : List Happening) (sound : Sound loop) :
    Sound (loop.run happenings) := by
  induction happenings generalizing loop with
  | nil => exact sound
  | cons happening rest inductionHypothesis =>
    exact inductionHypothesis (loop.follow happening) (sound_follow loop happening sound)

/-- A moment on a disk without files. -/
def bareMoment (now : Nat) : Moment := ⟨Files.Disk.bare, { has := fun _ => false }, now⟩

/-- The project that there is without settings. -/
def bareProject : Project where
  arguments := { job := .watch }
  settings := {}
  root := ⟨"/"⟩
  settingsPath := ⟨"/kiln.toml"⟩

/-- What a walk sees where there is one file. -/
def oneFile : View := ⟨fun _ => .ok [⟨"./a.sk"⟩], fun _ => .ok .file⟩

/-- A walk of one root that holds one file, from its start to its answer. -/
def walking (number : Nat) : List Happening :=
  [.ends oneFile 0, .goesOn, .ends oneFile 0, .goesOn, .goesOn].map (.within number)

end Loop
end BuildWatch
