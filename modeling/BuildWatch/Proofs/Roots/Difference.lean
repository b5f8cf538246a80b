import BuildWatch.Proofs.Roots.Membership
import BuildWatch.Watch.Watcher

/-!
# What a change of the wanted roots comes to

An update compares the wanted roots with the given ones as sets of paths. What it reports are the
two differences of the sets, each in the order of paths, and the calls follow the report. Since the
order of paths is total, nothing of the order of a list is left in it, and how often a path is given
is left in it as little. Of several spellings of one path the first is kept, which is all that
another list of the same paths can change.
-/

namespace BuildWatch

namespace Path

/-- One path comes before another in the order of paths, and means something else. -/
def Precedes (one other : Path) : Prop := one.le other = true ∧ one.components ≠ other.components

/-- Two lists are of the same paths, in any order and in any spellings, and as often as they like. -/
def SamePaths (paths others : List Path) : Prop :=
  ∀ meaning, meaning ∈ paths.map components ↔ meaning ∈ others.map components

/-- Two lists keep the same spellings when they are made sets. -/
def SameTexts (paths others : List Path) : Prop := ∀ path, path ∈ setOf paths ↔ path ∈ setOf others

/-- A sorted set is in strict order. -/
theorem sort_strict (paths : List Path) (distinct : (paths.map components).Nodup) :
    (sort paths).Pairwise Precedes := by
  have apart : ((sort paths).map components).Nodup :=
    ((sort_perm paths).map components).nodup_iff.mpr distinct
  exact (sort_ordered paths).and (List.pairwise_map.mp apart)

/-- The sorted list of a set is decided by its spellings, whatever their order. -/
theorem sort_perm_congr (paths others : List Path) (distinct : (paths.map components).Nodup)
    (same : paths.Perm others) : sort paths = sort others := by
  have spellings : (sort paths).Perm (sort others) :=
    (sort_perm paths).trans (same.trans (sort_perm others).symm)
  refine spellings.eq_of_pairwise ?_ (sort_ordered paths) (sort_ordered others)
  intro one other first second before after
  apply List.inj_on_of_nodup_map distinct
  · exact (sort_perm paths).mem_iff.mp first
  · exact same.mem_iff.mpr ((sort_perm others).mem_iff.mp second)
  · exact notAfter_antisymm _ _ before after

theorem SameTexts.perm {paths others : List Path} (same : SameTexts paths others) :
    (setOf paths).Perm (setOf others) := by
  apply (List.perm_ext_iff_of_nodup _ _).mpr same
  · exact (setOf_meanings paths).1.of_map
  · exact (setOf_meanings others).1.of_map

/-- Lists that keep the same spellings are of the same paths. -/
theorem SameTexts.samePaths {paths others : List Path} (same : SameTexts paths others) :
    SamePaths paths others := by
  intro meaning
  rw [← (setOf_meanings paths).2, ← (setOf_meanings others).2]
  exact (same.perm.map components).mem_iff

/-- What one set holds and another does not is decided by the paths in the other. -/
theorem without_congr (paths : List Path) (others further : List Path) (same : SamePaths others further) :
    without paths others = without paths further := by
  apply List.filter_congr
  intro path _
  rw [Bool.eq_iff_iff, Bool.not_eq_true', Bool.not_eq_true', ← Bool.not_eq_true, ← Bool.not_eq_true,
    memberOf_iff, memberOf_iff, same]

/-- Lists of equal paths in one order stay so when paths are chosen, if equal paths are chosen
alike. -/
theorem filter_meanings_congr (paths others : List Path) (chosen : Path → Bool)
    (same : paths.map components = others.map components)
    (alike : ∀ path ∈ paths, ∀ other ∈ others, path.components = other.components →
      chosen path = chosen other) :
    (paths.filter chosen).map components = (others.filter chosen).map components := by
  induction paths generalizing others with
  | nil =>
    obtain rfl : others = [] := List.map_eq_nil_iff.mp same.symm
    rfl
  | cons path rest inductionHypothesis =>
    cases others with
    | nil => cases same
    | cons other further =>
      obtain ⟨equal, later⟩ := List.cons.inj same
      have together : chosen path = chosen other :=
        alike path List.mem_cons_self other List.mem_cons_self equal
      have behind : (rest.filter chosen).map components = (further.filter chosen).map components := by
        apply inductionHypothesis further later
        intro one first two second
        exact alike one (List.mem_cons_of_mem _ first) two (List.mem_cons_of_mem _ second)
      rw [List.filter_cons, List.filter_cons, ← together]
      cases chosen path with
      | false => exact behind
      | true => exact congrArg₂ List.cons equal behind

end Path

/-- The root that a call is for. -/
def SubscriptionCall.root : SubscriptionCall → Path
  | .watch root => root
  | .unwatch root => root

/-- What a call asks for and for which path, whatever the spelling of the path. -/
def SubscriptionCall.sense : SubscriptionCall → Bool × List Component
  | .watch root => (true, root.components)
  | .unwatch root => (false, root.components)

namespace Subscriptions

/-- What an update reports and asks for, given the wanted roots and those with a subscription. -/
structure Difference (around : Surroundings) (state : Subscriptions) (roots : List Path)
    (turn : Turn RootsDiff) : Prop where
  /-- What is added is in order, each path once. -/
  added : turn.result.added.Pairwise Path.Precedes
  /-- What is dropped is in order, each path once. -/
  removed : turn.result.removed.Pairwise Path.Precedes
  /-- No path is added and dropped. -/
  apart : ∀ meaning ∈ turn.result.added.map Path.components,
    meaning ∉ turn.result.removed.map Path.components
  /-- The given roots are the wanted ones without what is dropped and with what is added. -/
  balance : ∀ meaning, meaning ∈ roots.map Path.components ↔
    meaning ∈ state.wantedMeanings ∧ meaning ∉ turn.result.removed.map Path.components ∨
      meaning ∈ turn.result.added.map Path.components
  /-- What is added or dropped is in one of the sets only. -/
  symmetric : ∀ meaning,
    meaning ∈ turn.result.added.map Path.components ∨ meaning ∈ turn.result.removed.map Path.components ↔
      ¬ (meaning ∈ state.wantedMeanings ↔ meaning ∈ roots.map Path.components)
  /-- The calls end the subscriptions to dropped roots and subscribe to the added ones that are
  there, in the order of the report. -/
  calls : turn.calls = (turn.result.removed.filter state.isLive).map .unwatch ++
    (turn.result.added.filter around.has).map .watch
  /-- No call is for a root that was wanted and stays so. -/
  spared : ∀ call ∈ turn.calls, call.root.components ∈ state.wantedMeanings →
    call.root.components ∉ roots.map Path.components

/-- What two updates with lists of the same paths have in common. -/
structure Agrees (around : Surroundings) (turn other : Turn RootsDiff) : Prop where
  /-- The same is dropped. -/
  removed : turn.result.removed = other.result.removed
  /-- The same paths are added in one order, in whatever spellings. -/
  added : turn.result.added.map Path.components = other.result.added.map Path.components
  /-- The calls are the same but for these spellings, unless the spelling decides whether a root
  is there. -/
  calls : (∀ root ∈ turn.result.added, ∀ same ∈ other.result.added,
      root.components = same.components → around.has root = around.has same) →
    turn.calls.map SubscriptionCall.sense = other.calls.map SubscriptionCall.sense

section Updates

variable (around : Surroundings) (state : Subscriptions)

theorem update_difference (sound : Sound state) (roots : List Path) :
    Difference around state roots (update around state roots) := by
  have adds (meaning : List Component) :
      meaning ∈ (update around state roots).result.added.map Path.components ↔
        meaning ∈ roots.map Path.components ∧ meaning ∉ state.wantedMeanings :=
    mem_added state roots meaning
  have drops (meaning : List Component) :
      meaning ∈ (update around state roots).result.removed.map Path.components ↔
        meaning ∈ state.wantedMeanings ∧ meaning ∉ roots.map Path.components :=
    mem_removed state roots meaning
  have calls := update_calls around state roots sound.wanted
  constructor
  case added =>
    apply Path.sort_strict
    exact (Path.setOf_meanings roots).1.sublist (List.filter_sublist.map _)
  case removed =>
    apply Path.sort_strict
    exact sound.wanted.sublist (List.filter_sublist.map _)
  case apart =>
    intro meaning new old
    exact ((adds meaning).mp new).2 ((drops meaning).mp old).1
  case balance =>
    intro meaning
    rw [adds, drops]
    tauto
  case symmetric =>
    intro meaning
    rw [adds, drops]
    tauto
  case calls => exact calls
  case spared =>
    intro call member wanted
    rw [calls, List.mem_append, List.mem_map, List.mem_map] at member
    rcases member with ⟨root, dropped, rfl⟩ | ⟨root, new, rfl⟩
    · have old := List.mem_map_of_mem (f := Path.components) (List.mem_filter.mp dropped).1
      exact ((drops root.components).mp old).2
    · have fresh := List.mem_map_of_mem (f := Path.components) (List.mem_filter.mp new).1
      exact absurd wanted ((adds root.components).mp fresh).2

variable {roots others : List Path}

theorem removed_congr (same : Path.SamePaths roots others) :
    state.removed roots = state.removed others := by
  have sets : Path.SamePaths (Path.setOf roots) (Path.setOf others) := fun meaning => by
    rw [(Path.setOf_meanings roots).2, (Path.setOf_meanings others).2, same]
  exact congrArg Path.sort (Path.without_congr state.wanted _ _ sets)

theorem added_meanings (same : Path.SamePaths roots others) :
    (state.added roots).map Path.components = (state.added others).map Path.components := by
  apply Path.sort_meanings
  · exact (Path.setOf_meanings roots).1.sublist (List.filter_sublist.map _)
  · exact (Path.setOf_meanings others).1.sublist (List.filter_sublist.map _)
  · intro meaning
    rw [Path.mem_without, Path.mem_without, (Path.setOf_meanings roots).2,
      (Path.setOf_meanings others).2, same]

theorem added_congr (same : Path.SameTexts roots others) :
    state.added roots = state.added others := by
  apply Path.sort_perm_congr
  · exact (Path.setOf_meanings roots).1.sublist (List.filter_sublist.map _)
  · exact same.perm.filter _

/-- Lists that keep the same spellings make the same report, the same calls and the same notes. -/
theorem update_congr (same : Path.SameTexts roots others) :
    (update around state roots).result = (update around state others).result ∧
      (update around state roots).calls = (update around state others).calls ∧
      (update around state roots).notes = (update around state others).notes := by
  have report : RootsDiff.between state.wanted (Path.setOf roots) =
      RootsDiff.between state.wanted (Path.setOf others) :=
    congrArg₂ RootsDiff.mk (added_congr state same) (removed_congr state same.samePaths)
  rw [update, update, report]
  exact ⟨rfl, rfl, rfl⟩

/-- Updates with lists of the same paths agree. -/
theorem update_agrees (sound : Sound state) (same : Path.SamePaths roots others) :
    Agrees around (update around state roots) (update around state others) := by
  have dropped := removed_congr state same
  have meanings := added_meanings state same
  refine ⟨dropped, meanings, fun alike => ?_⟩
  have there := Path.filter_meanings_congr _ _ around.has meanings alike
  have watched (paths : List Path) : (paths.map SubscriptionCall.watch).map SubscriptionCall.sense =
      (paths.map Path.components).map (Prod.mk true) := by
    rw [List.map_map, List.map_map]
    rfl
  rw [update_calls around state roots sound.wanted, update_calls around state others sound.wanted,
    List.map_append, List.map_append, watched, watched, there, dropped]

/-- An update with the wanted roots, in any spellings, reports nothing and makes no call. -/
theorem update_same (sound : Sound state) (same : Path.SamePaths state.wanted roots) :
    (update around state roots).result.isEmpty = true ∧ (update around state roots).calls = [] := by
  have sets : Path.SamePaths state.wanted (Path.setOf roots) := by
    intro meaning
    rw [(Path.setOf_meanings roots).2, same]
  have empty : (RootsDiff.between state.wanted (Path.setOf roots)).isEmpty = true :=
    (RootsDiff.isEmpty_iff _ _).mpr sets
  refine ⟨empty, ?_⟩
  rw [RootsDiff.isEmpty, Bool.and_eq_true, List.isEmpty_iff, List.isEmpty_iff] at empty
  rw [update_calls around state roots sound.wanted, added, removed, empty.1, empty.2]
  rfl

end Updates

/-- An event is raised when the given roots are not those that are wanted. -/
theorem updateRoots_raised (around : Surroundings) (watcher : Watcher) (roots : List Path) :
    let before := watcher.raised
    let after := (watcher.updateRoots around roots).value.2.raised
    (Path.SamePaths watcher.subscriptions.wanted roots → after = before) ∧
      (¬ Path.SamePaths watcher.subscriptions.wanted roots → after = before + 1) := by
  have empty : (watcher.subscriptions.update around roots).result.isEmpty = true ↔
      Path.SamePaths watcher.subscriptions.wanted roots := by
    rw [update, RootsDiff.isEmpty_iff]
    exact forall_congr' fun meaning => by rw [(Path.setOf_meanings roots).2]
  constructor
  · intro same
    exact if_pos (empty.mpr same)
  · intro different
    exact if_neg (different ∘ empty.mp)

/-- **An update makes the difference of two sets.** Let roots be wanted and looked after in any
order, where any paths lead to something at each moment and any calls are refused, and let a list of
roots be wanted then.

What is added and what is dropped are reported in the strict order of paths, and together they are
what only one of the two sets holds. The dropped roots that have a subscription lose it, then the
added roots that are there are subscribed to, both in the order of the report, and no other call is
made. One event is raised if the sets differ, and none otherwise.

Another list of the same paths, in another order or with repetitions, makes the same report in the
spellings that it keeps, and its calls follow that report in turn: they are the same but for these
spellings, unless the spelling of an added root decides whether it is there. If it keeps the same
spellings, the report, the calls and the notes are the very same. When such a list is wanted next,
in any surroundings, no call is made and no event is raised.

Proof: the sets are sound in every state that is reached, and a sorted set is decided by what is
in it. -/
theorem update_makes_difference (deeds : List Deed) (watcher : Watcher) (around : Surroundings)
    (roots : List Path) :
    let state := run deeds
    let before : Watcher := { watcher with subscriptions := state }
    let turn := state.update around roots
    let after := (before.updateRoots around roots).value.2
    Difference around state roots turn ∧
      (before.updateRoots around roots).value.1 = turn.result ∧ after.subscriptions = turn.after ∧
      (Path.SamePaths state.wanted roots → after.raised = before.raised) ∧
      (¬ Path.SamePaths state.wanted roots → after.raised = before.raised + 1) ∧
      (∀ others, Path.SamePaths roots others → Agrees around turn (state.update around others)) ∧
      (∀ others, Path.SameTexts roots others →
        let other := state.update around others
        turn.result = other.result ∧ turn.calls = other.calls ∧ turn.notes = other.notes) ∧
      ∀ others, Path.SamePaths roots others → ∀ next : Surroundings,
        (turn.after.update next others).result.isEmpty = true ∧
          (turn.after.update next others).calls = [] ∧
          (after.updateRoots next others).value.2.raised = after.raised := by
  intro state before turn after
  have sound : Sound state := run_sound deeds
  have raised := updateRoots_raised around before roots
  refine ⟨update_difference around state sound roots, rfl, rfl, raised.1, raised.2, ?_, ?_, ?_⟩
  · intro others same
    exact update_agrees around state sound same
  · intro others same
    exact update_congr around state same
  · intro others same next
    have wanted : Path.SamePaths turn.after.wanted others := by
      intro meaning
      rw [← same meaning]
      exact update_wanted around state roots meaning
    obtain ⟨empty, calls⟩ := update_same next turn.after (update_sound around state sound roots) wanted
    exact ⟨empty, calls, (updateRoots_raised next after others).1 wanted⟩

end Subscriptions
end BuildWatch
