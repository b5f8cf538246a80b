import BuildWatch.Proofs.Roots.Subscribing
import BuildWatch.Watch.Watcher

/-!
# Which wanted roots have a subscription

The subscriptions hold two sets of roots, and whether a wanted root still has none is seen by
comparing their sizes. That is right because only wanted roots have subscriptions, whatever is
wanted, looked for and refused: an update drops the subscriptions of the roots that it drops before
it subscribes to those it adds, and a look subscribes to wanted roots only.

A root that has a subscription is looked for under the spelling under which it was subscribed to,
any other under the spelling under which it is wanted. Spellings of one path may differ in what
they lead to: a slash at the end asks for a folder. So what a look comes to may depend on what was
wanted before.
-/

namespace BuildWatch.Subscriptions

/-- One thing that is done with subscriptions, each in surroundings of its own. -/
inductive Deed where
  | update (around : Surroundings) (roots : List Path)
  | maintain (around : Surroundings)

/-- Go on by one deed. -/
def follow (state : Subscriptions) : Deed → Subscriptions
  | .update around roots => (state.update around roots).after
  | .maintain around => (state.maintain around).after

/-- What comes of some deeds, when no root was wanted before. -/
def run (deeds : List Deed) : Subscriptions := deeds.foldl follow {}

/-- Each of the two sets holds a root once, and only wanted roots have a subscription. -/
structure Sound (state : Subscriptions) : Prop where
  wanted : state.wantedMeanings.Nodup
  live : state.liveMeanings.Nodup
  within : ∀ meaning ∈ state.liveMeanings, meaning ∈ state.wantedMeanings

section Steps

variable (around : Surroundings) (state : Subscriptions)

theorem attach_distinct (root : Path) (distinct : state.liveMeanings.Nodup) :
    (attach around state root).after.liveMeanings.Nodup := by
  rw [attach]
  split
  · exact distinct
  · split
    · exact distinct
    · exact Path.insertInto_distinct state.live root distinct

theorem attachAll_distinct (roots : List Path) (distinct : state.liveMeanings.Nodup) :
    (attachAll around state roots).after.liveMeanings.Nodup := by
  induction roots generalizing state with
  | nil => exact distinct
  | cons root rest inductionHypothesis =>
    apply inductionHypothesis
    exact attach_distinct around state root distinct

theorem detachAll_distinct (roots : List Path) (distinct : state.liveMeanings.Nodup) :
    (detachAll around state roots).after.liveMeanings.Nodup := by
  induction roots generalizing state with
  | nil => exact distinct
  | cons root rest inductionHypothesis =>
    apply inductionHypothesis
    rw [detach]
    split
    · exact distinct.sublist (List.filter_sublist.map _)
    · exact distinct

/-- An update makes the given roots the wanted ones. -/
theorem update_wanted (roots : List Path) (meaning : List Component) :
    meaning ∈ (update around state roots).after.wantedMeanings ↔ meaning ∈ roots.map Path.components :=
  (Path.setOf_meanings roots).2 meaning

/-- Roots that are subscribed to again are among those to be subscribed to. -/
theorem mem_missing (root : Path) :
    root ∈ missing around state ↔ root ∈ state.wanted ∧ around.has root = true ∧
      ¬ ∃ kept ∈ state.live, around.has kept = true ∧ kept.components = root.components := by
  have held := Path.memberOf_iff root (state.live.filter around.has)
  rw [missing, List.mem_filter, Bool.and_eq_true, Bool.not_eq_true', ← Bool.not_eq_true, held]
  simp only [List.mem_map, List.mem_filter, and_assoc]
  exact and_congr_right fun _ => and_comm

/-- An update keeps the two sets sound. -/
theorem update_sound (sound : Sound state) (roots : List Path) :
    Sound (update around state roots).after := by
  constructor
  case wanted => exact (Path.setOf_meanings roots).1
  case live =>
    apply attachAll_distinct around _ (state.added roots)
    exact detachAll_distinct around state (state.removed roots) sound.live
  case within =>
    intro meaning live
    rw [update_wanted]
    rcases (update_live around state roots meaning).mp live with ⟨before, kept⟩ | ⟨root, member, -, rfl⟩
    · by_contra dropped
      apply kept
      exact (mem_removed state roots meaning).mpr ⟨sound.within meaning before, dropped⟩
    · exact ((mem_added state roots root.components).mp (List.mem_map_of_mem member)).1

/-- A look keeps the two sets sound. -/
theorem maintain_sound (sound : Sound state) : Sound (maintain around state).after := by
  constructor
  case wanted =>
    rw [wantedMeanings, maintain_wanted]
    exact sound.wanted
  case live =>
    rw [maintain, (attachMissing_attachAll around _ _).1]
    apply attachAll_distinct
    exact sound.live.sublist (List.filter_sublist.map _)
  case within =>
    intro meaning live
    rw [wantedMeanings, maintain_wanted]
    rcases (maintain_live around state meaning).mp live with kept | ⟨root, member, -, rfl⟩
    · apply sound.within
      exact (List.filter_sublist.map _).subset kept
    · exact List.mem_map_of_mem ((mem_missing around state root).mp member).1

end Steps

/-- Whatever is done, the two sets are sound. -/
theorem run_sound (deeds : List Deed) : Sound (run deeds) := by
  induction deeds using List.reverseRecOn with
  | nil => exact ⟨List.nodup_nil, List.nodup_nil, fun _ member => absurd member List.not_mem_nil⟩
  | append_singleton before last inductionHypothesis =>
    rw [run, List.foldl_append, List.foldl_cons, List.foldl_nil]
    cases last with
    | update around roots => exact update_sound around _ inductionHypothesis roots
    | maintain around => exact maintain_sound around _ inductionHypothesis

/-- The smaller size of the one set shows that some wanted root has no subscription. -/
theorem Sound.hasMissing_iff {state : Subscriptions} (sound : Sound state) :
    state.hasMissing = true ↔ ∃ root ∈ state.wanted, state.isLive root = false := by
  have sizes : state.hasMissing = true ↔ state.liveMeanings.length < state.wantedMeanings.length := by
    simp [hasMissing, liveMeanings, wantedMeanings]
  rw [sizes]
  constructor
  · intro fewer
    by_contra none
    have all : state.wantedMeanings ⊆ state.liveMeanings := by
      intro meaning member
      obtain ⟨root, wanted, rfl⟩ := List.mem_map.mp member
      by_contra dead
      apply none
      refine ⟨root, wanted, ?_⟩
      rw [isLive, Bool.eq_false_iff, ne_eq, Path.memberOf_iff]
      exact dead
    exact absurd (sound.wanted.length_le_of_subset all) (Nat.not_le_of_lt fewer)
  · rintro ⟨root, wanted, dead⟩
    rw [isLive, Bool.eq_false_iff, ne_eq, Path.memberOf_iff] at dead
    have distinct : (root.components :: state.liveMeanings).Nodup :=
      List.nodup_cons.mpr ⟨dead, sound.live⟩
    apply distinct.length_le_of_subset
    intro meaning member
    rcases List.mem_cons.mp member with rfl | live
    · exact List.mem_map_of_mem wanted
    · exact sound.within meaning live

section Looks

variable (around : Surroundings) (state : Subscriptions)

/-- A wanted root is found by a look: under its own spelling, or under one under which it has a
subscription. -/
def Finds (root : Path) : Prop :=
  around.has root = true ∨ ∃ kept ∈ state.live, around.has kept = true ∧ kept.components = root.components

/-- A look asks for a subscription to a root, and is refused. -/
def Refuses (root : Path) : Prop :=
  .watch root ∈ (maintain around state).calls ∧ around.refusal? (.watch root) ≠ none

/-- The calls of a look are for the roots that it finds without a subscription. -/
theorem watch_mem_maintain (root : Path) :
    .watch root ∈ (maintain around state).calls ↔ root ∈ missing around state := by
  rw [maintain_calls, List.mem_map]
  constructor
  · rintro ⟨other, member, same⟩
    exact SubscriptionCall.watch.inj same ▸ member
  · intro member
    exact ⟨root, member, rfl⟩

/-- After a look those wanted roots have a subscription that it found and was not refused. -/
theorem maintain_isLive (sound : Sound state) (root : Path) (wanted : root ∈ state.wanted) :
    (maintain around state).after.isLive root = true ↔
      Finds around state root ∧ ¬ Refuses around state root := by
  have kept : root.components ∈ (state.live.filter around.has).map Path.components ↔
      ∃ kept ∈ state.live, around.has kept = true ∧ kept.components = root.components := by
    simp only [List.mem_map, List.mem_filter, and_assoc]
  have missed (other : Path) (member : other ∈ missing around state)
      (same : root.components = other.components) : other = root := by
    apply List.inj_on_of_nodup_map sound.wanted _ wanted same.symm
    exact ((mem_missing around state other).mp member).1
  rw [isLive, Path.memberOf_iff, ← liveMeanings, maintain_live, kept, Finds, Refuses,
    watch_mem_maintain, mem_missing]
  constructor
  · rintro (held | ⟨other, member, ⟨there, taken⟩, same⟩)
    · exact ⟨Or.inr held, fun refused => refused.1.2.2 held⟩
    · obtain rfl := missed other member same
      exact ⟨Or.inl there, fun refused => refused.2 taken⟩
  · rintro ⟨found, spared⟩
    by_cases held : ∃ kept ∈ state.live, around.has kept = true ∧ kept.components = root.components
    · exact Or.inl held
    · have there := found.resolve_right held
      have member := (mem_missing around state root).mpr ⟨wanted, there, held⟩
      refine Or.inr ⟨root, member, ⟨there, ?_⟩, rfl⟩
      by_contra refused
      exact spared ⟨⟨wanted, there, held⟩, refused⟩

theorem attach_result (root : Path) :
    (attach around state root).result = true ↔ around.Takes root := by
  rw [attach, Surroundings.Takes]
  cases there : around.has root with
  | false => simp
  | true => cases refused : around.refusal? (.watch root) <;> simp

theorem attachMissing_result (roots : List Path) :
    (attachMissing around state roots).result = true ↔ ∃ root ∈ roots, around.Takes root := by
  induction roots generalizing state with
  | nil => simp [attachMissing]
  | cons root rest inductionHypothesis =>
    rw [attachMissing, Bool.or_eq_true, attach_result, inductionHypothesis, List.exists_mem_cons_iff]

/-- A look says whether it subscribed to any root. -/
theorem maintain_result (sound : Sound state) :
    (maintain around state).result = true ↔
      ∃ root, .watch root ∈ (maintain around state).calls ∧
        (maintain around state).after.isLive root = true := by
  have subscribes : (maintain around state).result = true ↔
      ∃ root ∈ missing around state, around.Takes root := attachMissing_result around _ _
  rw [subscribes]
  refine exists_congr fun root => ?_
  rw [watch_mem_maintain]
  refine and_congr_right fun member => ?_
  obtain ⟨wanted, there, -⟩ := (mem_missing around state root).mp member
  rw [maintain_isLive around state sound root wanted, Finds, Refuses, watch_mem_maintain,
    Surroundings.Takes]
  simp [there, member]

end Looks

/-- **Which wanted roots have a subscription.** Let roots be wanted and looked after in any order,
where any paths lead to something at each moment, and any calls are refused.

Only wanted roots have a subscription, and the sizes of the two sets differ exactly when a wanted
root has none. After an update the wanted roots are the given ones. A look leaves the wanted roots,
and after it exactly those have a subscription that it found and for which it was not refused; it
says whether it made any. Where all spellings of a path lead to something or none does, it finds
exactly the roots that are there.

Proof: each step keeps the two sets sound, and a look is then told root by root. -/
theorem wanted_roots_live_when_found (deeds : List Deed) :
    let state := run deeds
    (∀ meaning ∈ state.liveMeanings, meaning ∈ state.wantedMeanings) ∧
      (state.hasMissing = true ↔ ∃ root ∈ state.wanted, state.isLive root = false) ∧
      (∀ around roots meaning, meaning ∈ (state.update around roots).after.wantedMeanings ↔
        meaning ∈ roots.map Path.components) ∧
      ∀ around : Surroundings,
        (state.maintain around).after.wanted = state.wanted ∧
        (∀ root ∈ state.wanted, (state.maintain around).after.isLive root = true ↔
          Finds around state root ∧ ¬ Refuses around state root) ∧
        ((∀ one other : Path, one.components = other.components → around.has one = around.has other) →
          ∀ root, Finds around state root ↔ around.has root = true) ∧
        ((state.maintain around).result = true ↔
          ∃ root, .watch root ∈ (state.maintain around).calls ∧
            (state.maintain around).after.isLive root = true) := by
  intro state
  have sound := run_sound deeds
  refine ⟨sound.within, sound.hasMissing_iff, fun around => update_wanted around state, ?_⟩
  intro around
  refine ⟨maintain_wanted around state, maintain_isLive around state sound, ?_,
    maintain_result around state sound⟩
  intro alike root
  refine ⟨?_, Or.inl⟩
  rintro (there | ⟨kept, -, there, same⟩)
  · exact there
  · exact alike kept root same ▸ there

/-- A disk with one file, and nothing else in its top folder. -/
def fileDisk : Files.Disk := { top := .entry "x" (.file ByteArray.empty) .empty, current := [] }

/-- The file is there under its name, and not with a slash behind it. -/
theorem fileDisk_has : fileDisk.has ⟨"/x"⟩ = true ∧ fileDisk.has ⟨"/x/"⟩ = false := by
  have plain : Files.stepsOf "/x" = [.into "x"] := by decide
  have slashed : Files.stepsOf "/x/" = [.into "x", .stay] := by decide
  simp +decide [Files.Disk.has, Files.Disk.nodeOf, Files.Disk.placeOf, plain, slashed,
    Files.walkSteps, Files.Folder.node?, Files.Folder.get?, fileDisk, Except.isOk, Except.toBool]

/-- On one disk and with the same root wanted, a look leaves a root without a subscription that it
does not find, or with one, when the root was wanted under another spelling before. -/
theorem respelled_root_live_though_missing :
    let around := Watcher.surroundings fileDisk
    let first : List Deed := [.update around [⟨"/x/"⟩], .maintain around]
    let later : List Deed := first ++ [.update around [⟨"/x"⟩], .maintain around,
      .update around [⟨"/x/"⟩], .maintain around]
    around.has ⟨"/x/"⟩ = false ∧ around.refusal? (.watch ⟨"/x/"⟩) = none ∧
      (run first).wanted = [⟨"/x/"⟩] ∧ (run first).isLive ⟨"/x/"⟩ = false ∧
      (run first).hasMissing = true ∧
      (run later).wanted = [⟨"/x/"⟩] ∧ (run later).isLive ⟨"/x/"⟩ = true ∧
      (run later).hasMissing = false := by
  intro around first later
  have plain : around.has ⟨"/x"⟩ = true := fileDisk_has.1
  have slashed : around.has ⟨"/x/"⟩ = false := fileDisk_has.2
  have granted (call : SubscriptionCall) : around.refusal? call = none := rfl
  have added : RootsDiff.between [] [⟨"/x/"⟩] = ⟨[⟨"/x/"⟩], []⟩ := by decide +kernel
  have shortened : RootsDiff.between [⟨"/x/"⟩] [⟨"/x"⟩] = ⟨[], []⟩ := by decide +kernel
  have lengthened : RootsDiff.between [⟨"/x"⟩] [⟨"/x/"⟩] = ⟨[], []⟩ := by decide +kernel
  have setOf_single (root : Path) : Path.setOf [root] = [root] := rfl
  have first_ : run first = { wanted := [⟨"/x/"⟩], live := [] } := by
    simp [run, first, follow, update, maintain, setOf_single, added, detachAll, attachAll,
      attachMissing, attach, slashed]
  have later_ : run later = { wanted := [⟨"/x/"⟩], live := [⟨"/x"⟩] } := by
    rw [run, List.foldl_append, ← run, first_]
    simp [follow, update, maintain, setOf_single, shortened, lengthened, detachAll, attachAll,
      attachMissing, attach, plain, slashed, granted, Path.insertInto, Path.memberOf]
  rw [first_, later_]
  refine ⟨slashed, granted _, rfl, ?_, ?_, rfl, ?_, ?_⟩ <;> decide

end BuildWatch.Subscriptions
