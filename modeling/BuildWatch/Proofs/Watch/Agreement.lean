import BuildWatch.Proofs.Watch.Loop

/-!
# Orders go by the settings in force

When other settings come into force while a walk goes on, the wanted roots may change under
it. The watcher does not touch the walk then: it only queues an event. That no order is sent
about the old roots rests on the order in which the loop asks its sources. The queue is asked
first, and the walk is asked only after the queue was empty, so the event was handled by then
and a walk of the wanted roots has taken the place of the other.

Two lists of roots are compared by what the roots mean, not by their texts: settings may come
to name the same folders in other words, and then nothing is walked anew.
-/

namespace BuildWatch.Loop

/-- Whether a question goes to the source whose turn it is. -/
def Happening.inTurn (next : Source) : Happening → Bool
  | .event _ => true
  | .request => true
  | .within _ _ => true
  | .ask source _ => source == next
  | .wake => true

/-- Whether the loop asks its sources in their fixed order all the time. -/
def asksInTurn : Loop → List Happening → Bool
  | _, [] => true
  | loop, happening :: rest => happening.inTurn loop.next && (loop.follow happening).asksInTurn rest

theorem asksInTurn_snoc (loop : Loop) (happenings : List Happening) (last : Happening) :
    loop.asksInTurn (happenings ++ [last]) =
      (loop.asksInTurn happenings && last.inTurn (loop.run happenings).next) := by
  induction happenings generalizing loop with
  | nil => simp [asksInTurn, run]
  | cons happening rest inductionHypothesis =>
    rw [List.cons_append, asksInTurn, inductionHypothesis, asksInTurn, Bool.and_assoc]
    rfl

/-- The active walk goes over the wanted roots, or changed roots are queued. They are not when
the queue was asked and was empty since something was done. -/
structure Agrees (loop : Loop) : Prop where
  queued : ∀ walk, loop.active? = some walk →
    walk.roots.map Path.components = loop.watcher.subscriptions.meanings ∨
      .rootsChanged ∈ loop.events
  settled : loop.next ≠ .events → ∀ walk, loop.active? = some walk →
    walk.roots.map Path.components = loop.watcher.subscriptions.meanings

/-- A step of the watcher keeps the agreement, if it takes changed roots out of the queue only
to start a walk. -/
theorem agrees_onward (loop : Loop) (left : List WatchEvent) (after : Watcher)
    (effect : Watcher.Effect loop.watcher after)
    (kept : .rootsChanged ∈ loop.events →
      .rootsChanged ∈ left ∨ after.walks = loop.watcher.walks.start after.subscriptions.roots)
    (aligned : loop.watcher.Aligned) (agrees : Agrees loop) : Agrees (loop.onward left after) := by
  have fresh (starts : after.walks = loop.watcher.walks.start after.subscriptions.roots)
      (walk : Walk) (active : after.walks.active = some walk) :
      walk.roots.map Path.components = after.subscriptions.meanings := by
    rw [starts, (Walks.start_active _ _).1] at active
    obtain rfl := Option.some.inj active
    rfl
  refine ⟨?_, fun other => absurd rfl other⟩
  intro walk active
  cases effect with
  | starts starts => exact Or.inl (fresh starts walk active)
  | raises walks pending raised =>
    refine Or.inr (List.mem_append_right _ ?_)
    rw [List.mem_replicate]
    exact ⟨by omega, rfl⟩
  | waits walks pending roots =>
    have before : loop.active? = some walk := by
      rw [active?, ← walks]
      exact active
    rcases agrees.queued walk before with same | within
    · exact Or.inl (same.trans (roots aligned).symm)
    · rcases kept within with stays | starts
      · exact Or.inr (List.mem_append_left _ stays)
      · exact Or.inl (fresh starts walk active)

/-- The source whose turn it is can be asked. A queue that was empty holds no changed roots,
and from then on the active walk goes over the wanted roots until something is done. -/
theorem agrees_asked (loop after : Loop) (asked : Asked loop loop.next after)
    (aligned : loop.watcher.Aligned) (agrees : Agrees loop) : Agrees after := by
  obtain ⟨queued, settled⟩ := id agrees
  cases asked with
  | passes next empty =>
    have same (walk : Walk) (active : loop.active? = some walk) :
        walk.roots.map Path.components = loop.watcher.subscriptions.meanings := by
      by_cases turn : loop.next = .events
      · refine (queued walk active).resolve_right fun within => ?_
        simp [empty turn] at within
      · exact settled turn walk active
    exact ⟨fun walk active => Or.inl (same walk active), fun _ => same⟩
  | steps requests left after effect goes kept =>
    exact agrees_onward { loop with requests := requests } left after effect kept aligned
      ⟨queued, settled⟩
  | sends walk files asked active answers =>
    refine ⟨?_, fun other => absurd rfl other⟩
    intro other active
    simp [active?] at active

theorem agrees_follow (loop : Loop) (happening : Happening) (sound : Sound loop)
    (inTurn : happening.inTurn loop.next = true) (agrees : Agrees loop) :
    Agrees (loop.follow happening) := by
  cases happening with
  | request => exact ⟨agrees.queued, agrees.settled⟩
  | wake => exact ⟨agrees.queued, fun other => absurd rfl other⟩
  | event event =>
    refine ⟨?_, agrees.settled⟩
    intro walk active
    exact (agrees.queued walk active).imp id (List.mem_append_left _)
  | ask source moment =>
    obtain rfl : source = loop.next := by simpa [Happening.inTurn] using inTurn
    exact agrees_asked loop _ (ask_asked loop moment loop.next sound.live) sound.aligned agrees
  | within number happening =>
    -- What happens to a walk leaves its roots alone.
    have before (walk : Walk) (active : (loop.follow (.within number happening)).active? = some walk) :
        ∃ old, loop.active? = some old ∧ walk.roots = old.roots := by
      simp only [follow, active?, Walks.happenAt] at active
      split_ifs at active
      · obtain ⟨old, there, rfl⟩ := Option.map_eq_some_iff.mp active
        exact ⟨old, there, Walk.happen_roots old happening⟩
      · exact ⟨walk, active, rfl⟩
    refine ⟨?_, ?_⟩
    · intro walk active
      obtain ⟨old, there, roots⟩ := before walk active
      rw [roots]
      exact agrees.queued old there
    · intro other walk active
      obtain ⟨old, there, roots⟩ := before walk active
      rw [roots]
      exact agrees.settled other old there

theorem agrees_run (loop : Loop) (happenings : List Happening) (sound : Sound loop)
    (inTurn : loop.asksInTurn happenings = true) (agrees : Agrees loop) :
    Agrees (loop.run happenings) := by
  induction happenings generalizing loop with
  | nil => exact agrees
  | cons happening rest inductionHypothesis =>
    rw [asksInTurn, Bool.and_eq_true] at inTurn
    exact inductionHypothesis (loop.follow happening) (sound_follow loop happening sound) inTurn.2
      (agrees_follow loop happening sound inTurn.1 agrees)

/-- A happening sends nothing; or the active walk is asked and has answered, and one order is sent
about the selected ones of its files. -/
theorem follow_sends (loop : Loop) (happening : Happening) (sound : Sound loop) :
    (loop.follow happening).sent = loop.sent ∨
    (∃ moment, happening = .ask .walk moment) ∧
      ∃ walk files, loop.active? = some walk ∧ walk.answer = some files ∧
        (loop.follow happening).sent = loop.sent ++ [(loop.watcher.walks.earlier.length,
          .compile (files.filter loop.watcher.project.selects))] := by
  cases happening with
  | event event | request | within other happening | wake => exact Or.inl rfl
  | ask source moment =>
    rw [follow]
    generalize asks : loop.ask moment source = after
    have asked := ask_asked loop moment source sound.live
    rw [asks] at asked
    cases asked with
    | passes next empty => exact Or.inl rfl
    | steps requests left after effect goes kept => exact Or.inl rfl
    | sends walk files asked active answers =>
      exact Or.inr ⟨⟨moment, by rw [asked]⟩, walk, files, active, answers, rfl⟩

/-- **Orders go by the settings in force.** The loop asks its sources in their fixed order, and
all else happens in any order. Whenever the active walk was not started with the wanted roots,
changed roots are queued. And a happening sends no order or one about the active walk: that walk
was started with exactly the roots that are wanted now, it has answered, and the order is about
those of its files, in its order, that the project in force selects.

Proof: every happening keeps the agreement of the active walk with the wanted roots. The turn
comes to the walk only after the queue was empty, and then no changed roots are queued. -/
theorem order_of_wanted_roots (around : Surroundings) (project : Project) (fingerprint : UInt64)
    (early : List WatchEvent) (happenings : List Happening) (happening : Happening)
    (inTurn : (start around project fingerprint early).asksInTurn (happenings ++ [happening]) = true) :
    let loop := (start around project fingerprint early).run happenings
    (∀ walk, loop.active? = some walk →
      walk.roots.map Path.components ≠ loop.watcher.subscriptions.roots.map Path.components →
      .rootsChanged ∈ loop.events) ∧
    ((loop.follow happening).sent = loop.sent ∨
      ∃ walk files current, loop.active? = some walk ∧ walk.answer = some files ∧
        walk.roots.map Path.components = loop.watcher.subscriptions.roots.map Path.components ∧
        loop.watcher.current = some current ∧
        (loop.follow happening).sent = loop.sent ++ [(loop.watcher.walks.earlier.length,
          .compile (files.filter (selects current.project.settings.watch.extensions)))]) := by
  intro loop
  rw [asksInTurn_snoc, Bool.and_eq_true] at inTurn
  have first := sound_start around project fingerprint early
  have sound : Sound loop := sound_run _ happenings first
  have agrees : Agrees loop := by
    refine agrees_run _ happenings first inTurn.1 ⟨?_, fun other => absurd rfl other⟩
    intro walk active
    simp [start, active?, Watcher.startIn, Watcher.updateRoots, Noted.andThen, Noted.quiet] at active
  refine ⟨fun walk active differ => (agrees.queued walk active).resolve_left differ, ?_⟩
  refine (follow_sends loop happening sound).imp id ?_
  rintro ⟨⟨moment, rfl⟩, walk, files, active, answers, sends⟩
  obtain ⟨current, loaded, project⟩ := sound.aligned.current
  have turn : Source.walk = loop.next := by simpa [Happening.inTurn] using inTurn.2
  refine ⟨walk, files, current, active, answers, ?_, loaded, ?_⟩
  · exact agrees.settled (by simp [← turn]) walk active
  · rw [sends, project]
    rfl

/-- The first walk of a project is asked in its turn, and its one file is compiled. -/
theorem order_of_first_walk :
    let loop := (start (bareMoment 0).around bareProject 0 []).run
      (.ask .events (bareMoment 0) :: walking 0 ++
        [.ask .events (bareMoment 1), .ask .requests (bareMoment 1)])
    ∃ walk files current, loop.active? = some walk ∧ walk.answer = some files ∧
      walk.roots.map Path.components = [[.here]] ∧ loop.watcher.current = some current ∧
      Order.compile [⟨"./a.sk"⟩] =
        .compile (files.filter (selects current.project.settings.watch.extensions)) := by
  intro loop
  have sent : (loop.follow (.ask .walk (bareMoment 1))).sent = [(0, .compile [⟨"./a.sk"⟩])] := by
    decide +kernel
  have before : loop.sent = [] := by decide +kernel
  have wanted : loop.watcher.subscriptions.roots.map Path.components = [[.here]] := by decide +kernel
  have numbered : loop.watcher.walks.earlier.length = 0 := by decide +kernel
  have agreed := (order_of_wanted_roots (bareMoment 0).around bareProject 0 []
    (.ask .events (bareMoment 0) :: walking 0 ++
      [.ask .events (bareMoment 1), .ask .requests (bareMoment 1)]) (.ask .walk (bareMoment 1))
    (by decide +kernel)).2
  rcases agreed with nothing | ⟨walk, files, current, active, answers, roots, loaded, order⟩
  · have sends : (loop.follow (.ask .walk (bareMoment 1))).sent ≠ loop.sent := by simp [sent, before]
    exact absurd nothing sends
  · refine ⟨walk, files, current, active, answers, roots.trans wanted, loaded, ?_⟩
    rw [sent, before, numbered, List.nil_append] at order
    exact (Prod.mk.inj (List.singleton_inj.mp order)).2

end BuildWatch.Loop
