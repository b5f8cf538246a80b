import BuildWatch.Proofs.Roots.Subscribing
import Mathlib.Data.List.Induction
import Mathlib.Tactic.Tauto

/-!
# Which roots are really watched

The system that tells of changes forgets a subscription when its folder goes away. The
subscriptions that are kept here know of that only by looking whether the folder is there, and
they look only when they are looked after. A folder that goes away and comes back between two
looks is taken for one that was there all the time: its root counts as subscribed to, and
nobody tells of its changes.

So after a look every wanted root that is there counts as subscribed to, and it really is
unless it was overlooked in this way. Folders come and go in any order, and any number of them
at once.
-/

namespace BuildWatch

/-- The subscriptions where folders come and go: which folders are there, and the roots whose
changes are really told of, both by their meanings. -/
structure Upkeep where
  subscriptions : Subscriptions := {}
  there : List Component → Bool
  told : List (List Component) := []

namespace Upkeep

/-- One thing that happens: some folders come and others go, other roots are wanted, or the
subscriptions are looked after. -/
inductive Happening where
  | becomes (there : List Component → Bool)
  | update (roots : List Path)
  | maintain

/-- The folders as the subscriptions see them. No call is refused for a folder that is there. -/
def around (upkeep : Upkeep) : Surroundings := { has := fun path => upkeep.there path.components }

/-- What a call changes in what is told of. -/
def obey (there : List Component → Bool) (told : List (List Component)) :
    SubscriptionCall → List (List Component)
  | .watch root => if there root.components then told ++ [root.components] else told
  | .unwatch root => told.filter (· ≠ root.components)

/-- Go on by one thing. A subscription ends when its folder is not there. -/
def follow (upkeep : Upkeep) : Happening → Upkeep
  | .becomes there => { upkeep with there := there, told := upkeep.told.filter there }
  | .update roots =>
    let turn := upkeep.subscriptions.update upkeep.around roots
    { upkeep with
      subscriptions := turn.after
      told := turn.calls.foldl (obey upkeep.there) upkeep.told }
  | .maintain =>
    let turn := upkeep.subscriptions.maintain upkeep.around
    { upkeep with
      subscriptions := turn.after
      told := turn.calls.foldl (obey upkeep.there) upkeep.told }

/-- What comes of some happenings, when no root was wanted before. -/
def run (there : List Component → Bool) (happenings : List Happening) : Upkeep :=
  happenings.foldl follow { there := there }

theorem run_snoc (there : List Component → Bool) (happenings : List Happening) (last : Happening) :
    run there (happenings ++ [last]) = (run there happenings).follow last := by
  simp only [run, List.foldl_append, List.foldl_cons, List.foldl_nil]

/-- A root counts as subscribed to, and its changes are not told of. -/
def Lost (upkeep : Upkeep) (meaning : List Component) : Prop :=
  meaning ∈ upkeep.subscriptions.liveMeanings ∧ meaning ∉ upkeep.told

/-- Something happens that does not show whether a root was gone: an update that wants the
root, a look when its folder is there, or a change of the folders. -/
def Passes (meaning : List Component) (upkeep : Upkeep) : Happening → Prop
  | .becomes _ => True
  | .update roots => meaning ∈ roots.map Path.components
  | .maintain => upkeep.there meaning = true

/-- A root was overlooked: the folder of its subscription went away, and nothing that happened
since then showed it. -/
def Overlooked (there : List Component → Bool) (happenings : List Happening)
    (meaning : List Component) : Prop :=
  ∃ before gone after, happenings = before ++ .becomes gone :: after ∧
    meaning ∈ (run there before).told ∧ gone meaning = false ∧
    ∀ middle happening rest, after = middle ++ happening :: rest →
      Passes meaning (run there (before ++ .becomes gone :: middle)) happening

/-- What is told of has a subscription and is there, and only wanted roots have one. -/
structure Sound (upkeep : Upkeep) : Prop where
  live : ∀ meaning ∈ upkeep.told, meaning ∈ upkeep.subscriptions.liveMeanings
  there : ∀ meaning ∈ upkeep.told, upkeep.there meaning = true
  wanted : ∀ meaning ∈ upkeep.subscriptions.liveMeanings,
    meaning ∈ upkeep.subscriptions.wantedMeanings
  distinct : upkeep.subscriptions.wantedMeanings.Nodup

/-- Calls to subscribe add the roots that are there. -/
theorem mem_watched (there : List Component → Bool) (told : List (List Component))
    (roots : List Path) (meaning : List Component) :
    meaning ∈ (roots.map .watch).foldl (obey there) told ↔
      meaning ∈ told ∨ meaning ∈ roots.map Path.components ∧ there meaning = true := by
  induction roots generalizing told with
  | nil => simp
  | cons root rest inductionHypothesis =>
    rw [List.map_cons, List.foldl_cons, inductionHypothesis, obey]
    by_cases same : meaning = root.components
    · subst same
      cases there root.components <;> simp
    · cases there root.components <;> simp [same]

/-- Calls to unsubscribe take their roots away. -/
theorem mem_unwatched (there : List Component → Bool) (told : List (List Component))
    (roots : List Path) (meaning : List Component) :
    meaning ∈ (roots.map .unwatch).foldl (obey there) told ↔
      meaning ∈ told ∧ meaning ∉ roots.map Path.components := by
  induction roots generalizing told with
  | nil => simp
  | cons root rest inductionHypothesis =>
    rw [List.map_cons, List.foldl_cons, inductionHypothesis, obey]
    simp [and_assoc]

variable (upkeep : Upkeep)

/-- Every root that is there can be subscribed to. -/
theorem around_takes (root : Path) :
    upkeep.around.Takes root ↔ upkeep.there root.components = true := by
  simp [Surroundings.Takes, around]

/-- The roots that are subscribed to in a list are those that are there. -/
theorem takes_meaning (roots : List Path) (meaning : List Component) :
    (∃ root ∈ roots, upkeep.around.Takes root ∧ meaning = root.components) ↔
      meaning ∈ roots.map Path.components ∧ upkeep.there meaning = true := by
  simp only [around_takes, List.mem_map]
  constructor
  · rintro ⟨root, member, there, rfl⟩
    exact ⟨⟨root, member, rfl⟩, there⟩
  · rintro ⟨⟨root, member, rfl⟩, there⟩
    exact ⟨root, member, there, rfl⟩

/-- After an update the wanted roots are the new ones. -/
theorem update_wanted (roots : List Path) (meaning : List Component) :
    meaning ∈ (upkeep.follow (.update roots)).subscriptions.wantedMeanings ↔
      meaning ∈ roots.map Path.components := (Path.setOf_meanings roots).2 meaning

/-- After an update a root counts as subscribed to when it did before and is still wanted, or
when it is newly wanted and there. -/
theorem update_live (sound : Sound upkeep) (roots : List Path) (meaning : List Component) :
    meaning ∈ (upkeep.follow (.update roots)).subscriptions.liveMeanings ↔
      meaning ∈ roots.map Path.components ∧ (meaning ∈ upkeep.subscriptions.liveMeanings ∨
        meaning ∉ upkeep.subscriptions.wantedMeanings ∧ upkeep.there meaning = true) := by
  have wanted := sound.wanted meaning
  refine (Subscriptions.update_live upkeep.around upkeep.subscriptions roots meaning).trans ?_
  rw [takes_meaning, Subscriptions.mem_added, Subscriptions.mem_removed]
  tauto

/-- Of some roots those that are there. -/
theorem mem_there (roots : List Path) (meaning : List Component) :
    meaning ∈ (roots.filter upkeep.around.has).map Path.components ↔
      meaning ∈ roots.map Path.components ∧ upkeep.there meaning = true :=
  Path.mem_filter_meanings roots _ (upkeep.there · = true) (fun _ => Iff.rfl) meaning

/-- An update changes what is told of just as it changes what counts as subscribed to. -/
theorem update_told (sound : Sound upkeep) (roots : List Path) (meaning : List Component) :
    meaning ∈ (upkeep.follow (.update roots)).told ↔
      meaning ∈ roots.map Path.components ∧ (meaning ∈ upkeep.told ∨
        meaning ∉ upkeep.subscriptions.wantedMeanings ∧ upkeep.there meaning = true) := by
  have live := sound.live meaning
  have wanted := sound.wanted meaning
  have held (others : List Path) := Path.mem_filter_meanings others
    (·.memberOf upkeep.subscriptions.live) (· ∈ upkeep.subscriptions.liveMeanings)
    (fun root => Path.memberOf_iff root _) meaning
  simp only [follow, Subscriptions.update_calls upkeep.around upkeep.subscriptions roots sound.distinct,
    List.foldl_append, mem_watched, mem_unwatched, held, mem_there, Subscriptions.mem_added,
    Subscriptions.mem_removed]
  tauto

/-- The roots that are subscribed to by a look are those that are wanted and there and do not
count as subscribed to. -/
theorem mem_missing (meaning : List Component) :
    meaning ∈ (upkeep.subscriptions.missing upkeep.around).map Path.components ↔
      meaning ∈ upkeep.subscriptions.wantedMeanings ∧
        meaning ∉ upkeep.subscriptions.liveMeanings ∧ upkeep.there meaning = true := by
  refine Path.mem_filter_meanings upkeep.subscriptions.wanted _
    (fun meaning => meaning ∉ upkeep.subscriptions.liveMeanings ∧ upkeep.there meaning = true)
    (fun root => ?_) meaning
  rw [Bool.and_eq_true, Bool.not_eq_true', ← Bool.not_eq_true, Path.memberOf_iff, mem_there]
  have here : upkeep.around.has root = upkeep.there root.components := rfl
  rw [here]
  tauto

/-- When the subscriptions are looked after, the wanted roots that are there count as
subscribed to. -/
theorem maintain_live (sound : Sound upkeep) (meaning : List Component) :
    meaning ∈ (upkeep.follow .maintain).subscriptions.liveMeanings ↔
      meaning ∈ upkeep.subscriptions.wantedMeanings ∧ upkeep.there meaning = true := by
  have wanted := sound.wanted meaning
  refine (Subscriptions.maintain_live upkeep.around upkeep.subscriptions meaning).trans ?_
  rw [takes_meaning, mem_there, mem_missing]
  tauto

/-- When the subscriptions are looked after, only roots that did not count as subscribed to are
subscribed to anew. -/
theorem maintain_told (meaning : List Component) :
    meaning ∈ (upkeep.follow .maintain).told ↔
      meaning ∈ upkeep.told ∨ meaning ∈ upkeep.subscriptions.wantedMeanings ∧
        meaning ∉ upkeep.subscriptions.liveMeanings ∧ upkeep.there meaning = true := by
  simp only [follow, Subscriptions.maintain_calls, mem_watched, mem_missing]
  tauto

theorem becomes_told (there : List Component → Bool) (meaning : List Component) :
    meaning ∈ (upkeep.follow (.becomes there)).told ↔ meaning ∈ upkeep.told ∧ there meaning = true :=
  List.mem_filter

/-- Whatever happens, what is told of stays among what counts as subscribed to and is there. -/
theorem sound_follow (sound : Sound upkeep) (happening : Happening) :
    Sound (upkeep.follow happening) := by
  cases happening with
  | becomes there =>
    refine ⟨fun meaning told => ?_, fun meaning told => ?_, sound.wanted, sound.distinct⟩
    · exact sound.live meaning ((becomes_told upkeep there meaning).mp told).1
    · exact ((becomes_told upkeep there meaning).mp told).2
  | update roots =>
    refine ⟨fun meaning => ?_, fun meaning => ?_, fun meaning => ?_, (Path.setOf_meanings roots).1⟩
    · have live := sound.live meaning
      rw [update_told upkeep sound, update_live upkeep sound]
      tauto
    · have there := sound.there meaning
      rw [update_told upkeep sound]
      rintro ⟨-, told | ⟨-, here⟩⟩
      · exact there told
      · exact here
    · rw [update_live upkeep sound, update_wanted]
      exact And.left
  | maintain =>
    have wanted : (upkeep.follow .maintain).subscriptions.wantedMeanings =
        upkeep.subscriptions.wantedMeanings := by
      rw [Subscriptions.wantedMeanings, Subscriptions.wantedMeanings]
      exact congrArg _ (Subscriptions.maintain_wanted upkeep.around upkeep.subscriptions)
    refine ⟨fun meaning => ?_, fun meaning => ?_, fun meaning => ?_, wanted ▸ sound.distinct⟩
    · have there := sound.there meaning
      have known := fun told => sound.wanted meaning (sound.live meaning told)
      rw [maintain_told, maintain_live upkeep sound]
      tauto
    · have there := sound.there meaning
      rw [maintain_told]
      rintro (told | ⟨-, -, here⟩)
      · exact there told
      · exact here
    · rw [maintain_live upkeep sound, wanted]
      exact And.left

theorem sound_run (there : List Component → Bool) (happenings : List Happening) :
    Sound (run there happenings) := by
  induction happenings using List.reverseRecOn with
  | nil =>
    refine ⟨?_, ?_, ?_, List.nodup_nil⟩ <;> intro meaning member <;>
      exact absurd member List.not_mem_nil
  | append_singleton before last inductionHypothesis =>
    rw [run_snoc]
    exact sound_follow _ inductionHypothesis last

/-- A root gets lost when its folder goes away, and stays lost as long as nothing shows it. -/
theorem lost_follow (sound : Sound upkeep) (happening : Happening) (meaning : List Component) :
    Lost (upkeep.follow happening) meaning ↔
      Lost upkeep meaning ∧ Passes meaning upkeep happening ∨
        ∃ gone, happening = .becomes gone ∧ meaning ∈ upkeep.told ∧ gone meaning = false := by
  have live := sound.live meaning
  have wanted := sound.wanted meaning
  cases happening with
  | becomes there =>
    have still : (upkeep.follow (.becomes there)).subscriptions = upkeep.subscriptions := rfl
    rw [Lost, becomes_told, still]
    simp only [Lost, Passes, Happening.becomes.injEq, exists_eq_left', ← Bool.not_eq_true]
    tauto
  | update roots =>
    rw [Lost, update_told upkeep sound, update_live upkeep sound]
    simp only [Lost, Passes, reduceCtorEq, false_and, exists_false, or_false]
    tauto
  | maintain =>
    rw [Lost, maintain_told, maintain_live upkeep sound]
    simp only [Lost, Passes, reduceCtorEq, false_and, exists_false, or_false]
    tauto

/-- What was overlooked before something happened is overlooked still if that did not show it,
and a root is overlooked from the moment on when its folder goes away. -/
theorem overlooked_snoc (there : List Component → Bool) (happenings : List Happening)
    (last : Happening) (meaning : List Component) :
    Overlooked there (happenings ++ [last]) meaning ↔
      Overlooked there happenings meaning ∧ Passes meaning (run there happenings) last ∨
        ∃ gone, last = .becomes gone ∧ meaning ∈ (run there happenings).told ∧ gone meaning = false := by
  constructor
  · rintro ⟨before, gone, after, split, told, away, passes⟩
    rcases List.eq_nil_or_concat' after with rfl | ⟨earlier, other, rfl⟩
    · obtain ⟨rfl, same⟩ := List.append_inj' split rfl
      exact Or.inr ⟨gone, List.singleton_inj.mp same, told, away⟩
    · obtain ⟨rfl, same⟩ := List.append_inj'
        (split.trans (List.append_assoc before (.becomes gone :: earlier) [other]).symm) rfl
      obtain rfl := List.singleton_inj.mp same
      refine Or.inl ⟨⟨before, gone, earlier, rfl, told, away, ?_⟩, passes earlier last [] rfl⟩
      rintro middle happening rest rfl
      exact passes middle happening (rest ++ [last]) (by simp)
  · rintro (⟨⟨before, gone, after, rfl, told, away, passes⟩, passed⟩ | ⟨gone, rfl, told, away⟩)
    · refine ⟨before, gone, after ++ [last], by simp, told, away, ?_⟩
      intro middle happening rest split
      rcases List.eq_nil_or_concat' rest with rfl | ⟨rest, other, rfl⟩
      · obtain ⟨rfl, same⟩ := List.append_inj' split rfl
        exact List.singleton_inj.mp same ▸ passed
      · have longer : after ++ [last] = (middle ++ happening :: rest) ++ [other] := by
          rw [split, List.append_assoc, List.cons_append]
        exact passes middle happening rest (List.append_inj' longer rfl).1
    · refine ⟨happenings, gone, [], rfl, told, away, ?_⟩
      intro middle happening rest split
      simp at split

/-- A root is lost exactly when it was overlooked. -/
theorem lost_iff_overlooked (there : List Component → Bool) (happenings : List Happening)
    (meaning : List Component) :
    Lost (run there happenings) meaning ↔ Overlooked there happenings meaning := by
  induction happenings using List.reverseRecOn with
  | nil =>
    constructor
    · rintro ⟨live, -⟩
      exact absurd live List.not_mem_nil
    · rintro ⟨before, gone, after, split, -⟩
      simp at split
  | append_singleton before last inductionHypothesis =>
    rw [run_snoc, lost_follow _ (sound_run there before), overlooked_snoc, inductionHypothesis]

/-- **A root that is there is watched unless it was overlooked.** Let folders come and go in any
order while other roots are wanted and the subscriptions are looked after. Right after a look,
every wanted root that is there counts as subscribed to. Its changes are really told of
exactly when it was not overlooked: when its folder did not go away after it was last
subscribed to, or some look since then found the folder missing, or some update dropped the root.

Proof: what counts as subscribed to and is not told of changes only as a root gets overlooked
or an overlooked root is found out; so the two are the same over every run. -/
theorem present_root_watched_unless_overlooked (there : List Component → Bool)
    (happenings : List Happening) (root : Path)
    (wanted : root ∈ (run there (happenings ++ [.maintain])).subscriptions.wanted)
    (present : (run there (happenings ++ [.maintain])).there root.components = true) :
    (run there (happenings ++ [.maintain])).subscriptions.isLive root = true ∧
      (root.components ∈ (run there (happenings ++ [.maintain])).told ↔
        ¬ Overlooked there happenings root.components) := by
  have sound := sound_run there happenings
  have before : root.components ∈ (run there happenings).subscriptions.wantedMeanings := by
    rw [run_snoc, follow, Subscriptions.maintain_wanted] at wanted
    exact List.mem_map_of_mem wanted
  have live : root.components ∈
      (run there (happenings ++ [.maintain])).subscriptions.liveMeanings := by
    rw [run_snoc] at present ⊢
    exact (maintain_live _ sound root.components).mpr ⟨before, present⟩
  have overlooked := overlooked_snoc there happenings .maintain root.components
  have passes : Passes root.components (run there happenings) .maintain := by
    rw [run_snoc] at present
    exact present
  rw [← lost_iff_overlooked] at overlooked
  refine ⟨(Path.memberOf_iff root _).mpr live, ?_⟩
  simp only [passes, and_true, reduceCtorEq, false_and, exists_false, or_false] at overlooked
  rw [← overlooked, Lost]
  tauto

/-- The folder of the only root. -/
def onlyRoot : Path := ⟨"/p"⟩

/-- A root that is missing at first is watched after the first look that finds its folder. -/
theorem created_root_watched :
    let upkeep := run (fun _ => false)
      ([.update [onlyRoot], .becomes (· == onlyRoot.components)] ++ [.maintain])
    onlyRoot ∈ upkeep.subscriptions.wanted ∧ upkeep.there onlyRoot.components = true ∧
      upkeep.subscriptions.isLive onlyRoot = true ∧ onlyRoot.components ∈ upkeep.told := by
  have wanted : onlyRoot ∈ (run (fun _ => false) ([.update [onlyRoot],
      .becomes (· == onlyRoot.components)] ++ [.maintain])).subscriptions.wanted := by
    decide +kernel
  have present : (run (fun _ => false) ([.update [onlyRoot],
      .becomes (· == onlyRoot.components)] ++ [.maintain])).there onlyRoot.components = true := by
    decide +kernel
  obtain ⟨live, told⟩ := present_root_watched_unless_overlooked _ _ onlyRoot wanted present
  refine ⟨wanted, present, live, told.mpr ?_⟩
  -- Nothing was told of before the only change of the folders.
  rintro ⟨before, gone, after, split, early, -⟩
  rcases before with - | ⟨first, - | ⟨second, before⟩⟩
  · cases split
  · cases split
    exact absurd early (by decide +kernel)
  · simp at split

/-- A root whose folder went away and came back before the next look is not watched any more. -/
theorem recreated_root_not_watched :
    let upkeep := run (· == onlyRoot.components)
      [.update [onlyRoot], .becomes fun _ => false, .becomes (· == onlyRoot.components), .maintain]
    onlyRoot ∈ upkeep.subscriptions.wanted ∧ upkeep.there onlyRoot.components = true ∧
      upkeep.subscriptions.isLive onlyRoot = true ∧ onlyRoot.components ∉ upkeep.told := by
  decide +kernel

end Upkeep
end BuildWatch
