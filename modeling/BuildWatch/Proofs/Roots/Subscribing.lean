import BuildWatch.Proofs.Path.Order
import BuildWatch.Roots.Subscriptions

/-!
# What subscribing and unsubscribing does

A change of the wanted roots and a look after them go root by root. Here it is said of whole
lists of roots which subscriptions there are afterwards, and which calls were made. Roots
count by their meanings, since a root may be wanted under one spelling and subscribed to under
another.
-/

namespace BuildWatch

/-- A root can be subscribed to: it is there, and the call is not refused. -/
def Surroundings.Takes (around : Surroundings) (root : Path) : Prop :=
  around.has root = true ∧ around.refusal? (.watch root) = none

namespace Subscriptions

/-- The roots with a subscription, by their meanings. -/
def liveMeanings (state : Subscriptions) : List (List Component) := state.live.map Path.components

/-- The wanted roots by their meanings. -/
def wantedMeanings (state : Subscriptions) : List (List Component) :=
  state.wanted.map Path.components

variable (around : Surroundings) (state : Subscriptions)

/-- A root that can be subscribed to has a subscription afterwards, and nothing else changes. -/
theorem attach_live (root : Path) (meaning : List Component) :
    meaning ∈ (attach around state root).after.liveMeanings ↔
      meaning ∈ state.liveMeanings ∨ around.Takes root ∧ meaning = root.components := by
  rw [attach, Surroundings.Takes]
  cases there : around.has root with
  | false => simp
  | true =>
    cases refused : around.refusal? (.watch root) with
    | some reason => simp
    | none => simpa [liveMeanings] using Path.mem_insertInto state.live root meaning

/-- The call is made for a root that is there. -/
theorem attach_calls (root : Path) :
    (attach around state root).calls = if around.has root then [.watch root] else [] := by
  rw [attach]
  cases there : around.has root with
  | false => rfl
  | true => cases refused : around.refusal? (.watch root) <;> rfl

theorem attachAll_live (roots : List Path) (meaning : List Component) :
    meaning ∈ (attachAll around state roots).after.liveMeanings ↔
      meaning ∈ state.liveMeanings ∨ ∃ root ∈ roots, around.Takes root ∧ meaning = root.components := by
  induction roots generalizing state with
  | nil => simp [attachAll]
  | cons root rest inductionHypothesis =>
    rw [attachAll, inductionHypothesis, attach_live]
    simp [or_assoc]

theorem attachAll_calls (roots : List Path) :
    (attachAll around state roots).calls = (roots.filter around.has).map .watch := by
  induction roots generalizing state with
  | nil => rfl
  | cons root rest inductionHypothesis =>
    rw [attachAll, inductionHypothesis, attach_calls, List.filter_cons]
    cases around.has root <;> rfl

/-- Roots are subscribed to again as they are subscribed to. -/
theorem attachMissing_attachAll (roots : List Path) :
    (attachMissing around state roots).after = (attachAll around state roots).after ∧
      (attachMissing around state roots).calls = (attachAll around state roots).calls := by
  induction roots generalizing state with
  | nil => exact ⟨rfl, rfl⟩
  | cons root rest inductionHypothesis =>
    obtain ⟨after, calls⟩ := inductionHypothesis (attach around state root).after
    exact ⟨after, congrArg ((attach around state root).calls ++ ·) calls⟩

/-- A root that had a subscription has none afterwards, and nothing else changes. -/
theorem detach_live (root : Path) (meaning : List Component) :
    meaning ∈ (detach around state root).after.liveMeanings ↔
      meaning ∈ state.liveMeanings ∧ meaning ≠ root.components := by
  rw [detach]
  split_ifs with held
  · exact Path.mem_eraseFrom state.live root meaning
  · rw [Path.memberOf_iff] at held
    refine ⟨fun member => ⟨member, ?_⟩, And.left⟩
    rintro rfl
    exact held member

/-- The call is made for a root that had a subscription. -/
theorem detach_calls (root : Path) :
    (detach around state root).calls = if root.memberOf state.live then [.unwatch root] else [] := by
  rw [detach]
  split_ifs <;> rfl

theorem detachAll_live (roots : List Path) (meaning : List Component) :
    meaning ∈ (detachAll around state roots).after.liveMeanings ↔
      meaning ∈ state.liveMeanings ∧ meaning ∉ roots.map Path.components := by
  induction roots generalizing state with
  | nil => simp [detachAll]
  | cons root rest inductionHypothesis =>
    rw [detachAll, inductionHypothesis, detach_live]
    simp [and_assoc]

/-- Of different roots, those that had a subscription are unsubscribed from. -/
theorem detachAll_calls (roots : List Path) (distinct : (roots.map Path.components).Nodup) :
    (detachAll around state roots).calls =
      (roots.filter fun root => root.memberOf state.live).map .unwatch := by
  induction roots generalizing state with
  | nil => rfl
  | cons root rest inductionHypothesis =>
    rw [List.map_cons, List.nodup_cons] at distinct
    have others : (rest.filter fun other => other.memberOf (detach around state root).after.live) =
        rest.filter fun other => other.memberOf state.live := by
      refine List.filter_congr fun other member => ?_
      have apart : other.components ≠ root.components :=
        fun same => distinct.1 (same ▸ List.mem_map_of_mem member)
      rw [Bool.eq_iff_iff, Path.memberOf_iff, Path.memberOf_iff]
      exact (detach_live around state root other.components).trans (and_iff_left apart)
    rw [detachAll, inductionHypothesis _ distinct.2, others, detach_calls, List.filter_cons]
    cases root.memberOf state.live <;> rfl

/-- The roots that a new set adds. -/
def added (roots : List Path) : List Path := (RootsDiff.between state.wanted (Path.setOf roots)).added

/-- The roots that a new set drops. -/
def removed (roots : List Path) : List Path :=
  (RootsDiff.between state.wanted (Path.setOf roots)).removed

theorem mem_added (roots : List Path) (meaning : List Component) :
    meaning ∈ (state.added roots).map Path.components ↔
      meaning ∈ roots.map Path.components ∧ meaning ∉ state.wantedMeanings := by
  rw [added, RootsDiff.between, Path.mem_sort, Path.mem_without, (Path.setOf_meanings roots).2]
  rfl

theorem mem_removed (roots : List Path) (meaning : List Component) :
    meaning ∈ (state.removed roots).map Path.components ↔
      meaning ∈ state.wantedMeanings ∧ meaning ∉ roots.map Path.components := by
  rw [removed, RootsDiff.between, Path.mem_sort, Path.mem_without, (Path.setOf_meanings roots).2]
  rfl

theorem removed_distinct (roots : List Path) (distinct : state.wantedMeanings.Nodup) :
    ((state.removed roots).map Path.components).Nodup := by
  rw [removed, RootsDiff.between, ((Path.sort_perm _).map Path.components).nodup_iff]
  exact distinct.sublist (List.filter_sublist.map _)

theorem update_live (roots : List Path) (meaning : List Component) :
    meaning ∈ (update around state roots).after.liveMeanings ↔
      meaning ∈ state.liveMeanings ∧ meaning ∉ (state.removed roots).map Path.components ∨
        ∃ root ∈ state.added roots, around.Takes root ∧ meaning = root.components := by
  refine (attachAll_live around _ (state.added roots) meaning).trans ?_
  rw [detachAll_live]
  rfl

theorem update_calls (roots : List Path) (distinct : state.wantedMeanings.Nodup) :
    (update around state roots).calls =
      ((state.removed roots).filter fun root => root.memberOf state.live).map .unwatch ++
        ((state.added roots).filter around.has).map .watch := by
  have dropped := detachAll_calls around state _ (state.removed_distinct roots distinct)
  have subscribed := attachAll_calls around
    (detachAll around state (state.removed roots)).after (state.added roots)
  exact congrArg₂ (· ++ ·) dropped subscribed

/-- The wanted roots that are there and have no subscription to a root that is there. -/
def missing : List Path :=
  state.wanted.filter fun root => !root.memberOf (state.live.filter around.has) && around.has root

/-- The wanted roots are not touched when some are subscribed to again. -/
theorem attachMissing_wanted (roots : List Path) :
    (attachMissing around state roots).after.wanted = state.wanted := by
  induction roots generalizing state with
  | nil => rfl
  | cons root rest inductionHypothesis =>
    rw [attachMissing, inductionHypothesis, attach]
    split_ifs
    · rfl
    · split <;> rfl

theorem maintain_wanted : (maintain around state).after.wanted = state.wanted := by
  rw [maintain, attachMissing_wanted]

theorem maintain_live (meaning : List Component) :
    meaning ∈ (maintain around state).after.liveMeanings ↔
      meaning ∈ (state.live.filter around.has).map Path.components ∨
        ∃ root ∈ missing around state, around.Takes root ∧ meaning = root.components := by
  rw [maintain, (attachMissing_attachAll around _ _).1]
  exact attachAll_live around { state with live := state.live.filter around.has } _ meaning

theorem maintain_calls :
    (maintain around state).calls = (missing around state).map .watch := by
  rw [maintain, (attachMissing_attachAll around _ _).2, attachAll_calls, missing, List.filter_filter]
  congr 2
  funext root
  cases around.has root <;> simp

end Subscriptions
end BuildWatch
