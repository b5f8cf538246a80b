import BuildWatch.Proofs.Path.Order
import BuildWatch.Watch.Debouncer
import Mathlib.Data.List.DropRight

/-!
# Waiting for quiet loses nothing

A batch is taken when the last change is old enough, and it is all that changed since a batch was
taken last or the changes were forgotten. Other windows may come in between: the one that counts
is the one in force when a batch is asked for.

Two fields stand for the whole history. One is the set of the paths that were added since the
history was settled last, by a batch or by forgetting, and the other is the time of the last
addition since then. Whoever waits as long as he is told finds the window passed, because no time
that has passed by then is counted as waiting still.
-/

namespace BuildWatch

/-- The set of the paths of a list holds no other texts than the list does. -/
theorem Path.setOf_subset (paths : List Path) : setOf paths ⊆ paths := by
  induction paths using List.reverseRecOn with
  | nil => simp [setOf]
  | append_singleton before path inductionHypothesis =>
    have step : setOf (before ++ [path]) = insertInto (setOf before) path := by simp [setOf]
    have further : setOf before ⊆ before ++ [path] :=
      List.Subset.trans inductionHypothesis (List.subset_append_left _ _)
    rw [step, insertInto]
    split_ifs
    · exact further
    · exact List.append_subset.mpr ⟨further, List.subset_append_right _ _⟩

namespace Debouncer

/-- What is asked for. -/
inductive Call where
  | add (paths : List Path)
  | setWindow (window : Nat)
  | clear
  | take

/-- A call that was made: when, and the batch that it gave, if it gave one. -/
structure Made where
  time : Nat
  call : Call
  batch : Option (List Path)

namespace Made

/-- No change from before such a call waits any more. -/
def settles (made : Made) : Bool :=
  match made.call with
  | .clear => true
  | _ => made.batch.isSome

/-- The paths that a call adds. -/
def paths (made : Made) : List Path :=
  match made.call with
  | .add paths => paths
  | _ => []

/-- The time of a call that adds paths, or none at all. -/
def addedAt? (made : Made) : Option Nat :=
  match made.call with
  | .add _ => some made.time
  | _ => none

/-- The window that a call puts in force. -/
def window? (made : Made) : Option Nat :=
  match made.call with
  | .setWindow window => some window
  | _ => none

end Made

/-- The calls since the last one that settled the changes. -/
def unsettled (calls : List Made) : List Made := calls.rtakeWhile (!·.settles)

/-- All paths that some calls added. -/
def added (calls : List Made) : List Path := calls.flatMap Made.paths

/-- When some calls added paths last. -/
def lastAdded (calls : List Made) : Option Nat := (calls.filterMap Made.addedAt?).getLast?

/-- The window in force after some calls. -/
def windowAfter (start : Nat) (calls : List Made) : Nat :=
  (calls.filterMap Made.window?).getLast?.getD start

/-- A batch that holds each path of a list once, in one of the texts that it has there. -/
structure Batches (paths batch : List Path) : Prop where
  once : (batch.map Path.components).Nodup
  texts : batch ⊆ paths
  all : ∀ meaning, meaning ∈ batch.map Path.components ↔ meaning ∈ paths.map Path.components

theorem batches_setOf (paths : List Path) : Batches paths (Path.setOf paths) :=
  ⟨(Path.setOf_meanings paths).1, Path.setOf_subset paths, (Path.setOf_meanings paths).2⟩

/-- Make a call. -/
def perform (now : Nat) (state : Debouncer) : Call → Option (List Path) × Debouncer
  | .add paths => (none, state.add now paths)
  | .setWindow window => (none, state.setWindow window)
  | .clear => (none, state.clear)
  | .take => state.take now

/-- The state after some calls, and the calls with what they gave. -/
structure History where
  state : Debouncer
  calls : List Made := []

/-- Make one more call at some time. -/
def follow (history : History) (call : Nat × Call) : History :=
  let result := perform call.1 history.state call.2
  ⟨result.2, history.calls ++ [⟨call.1, call.2, result.1⟩]⟩

/-- Make some calls at their times, from the beginning. -/
def run (window : Nat) (calls : List (Nat × Call)) : History :=
  calls.foldl follow { state := { window := window } }

theorem run_snoc (window : Nat) (calls : List (Nat × Call)) (last : Nat × Call) :
    run window (calls ++ [last]) = follow (run window calls) last := by
  simp only [run, List.foldl_append, List.foldl_cons, List.foldl_nil]

/-- A batch is given when the last change is as old as the window, and it is all that waits. -/
theorem take_batch_iff (now : Nat) (state : Debouncer) (batch : List Path) :
    (state.take now).1 = some batch ↔
      (∃ last, state.last = some last ∧ state.window ≤ now - last) ∧ batch = state.changed := by
  have ready_iff : state.isReady now = true ↔
      ∃ last, state.last = some last ∧ state.window ≤ now - last := by
    simp [isReady, Option.any_eq_true]
  rw [take, ← ready_iff]
  by_cases ready : state.isReady now = true <;> simp [ready, eq_comm]

/-- What a question for a batch changes: nothing when there is none, and then nothing waits. -/
theorem take_after (now : Nat) (state : Debouncer) :
    (state.take now).2 = if (state.take now).1.isSome then state.clear else state := by
  rw [take]
  split <;> rfl

/-- What calls leave behind. -/
def stateAfter (start : Nat) (calls : List Made) : Debouncer where
  window := windowAfter start calls
  changed := Path.setOf (added (unsettled calls))
  last := lastAdded (unsettled calls)

/-- What one more call leaves behind. -/
theorem stateAfter_snoc (start : Nat) (calls : List Made) (last : Made) :
    stateAfter start (calls ++ [last]) =
      { window := last.window?.getD (windowAfter start calls)
        changed :=
          if last.settles then [] else last.paths.foldl Path.insertInto (stateAfter start calls).changed
        last := if last.settles then none else last.addedAt?.or (stateAfter start calls).last } := by
  have window : windowAfter start (calls ++ [last]) =
      last.window?.getD (windowAfter start calls) := by
    cases change : last.window? <;> simp [windowAfter, List.filterMap_append, change]
  have since : unsettled (calls ++ [last]) =
      if last.settles then [] else unsettled calls ++ [last] := by
    rw [unsettled, List.rtakeWhile_concat]
    cases last.settles <;> simp [unsettled]
  rw [stateAfter, window, since]
  cases last.settles with
  | true => rfl
  | false =>
    have paths : Path.setOf (added (unsettled calls ++ [last])) =
        last.paths.foldl Path.insertInto (Path.setOf (added (unsettled calls))) := by
      simp [added, Path.setOf, List.foldl_append]
    have time : lastAdded (unsettled calls ++ [last]) =
        last.addedAt?.or (lastAdded (unsettled calls)) := by
      cases addition : last.addedAt? <;> simp [lastAdded, List.filterMap_append, addition]
    simp [paths, time, stateAfter]

/-- Every call turns what the calls before it left behind into what they leave behind with it. -/
theorem perform_stateAfter (start now : Nat) (calls : List Made) (call : Call) :
    let result := perform now (stateAfter start calls) call
    result.2 = stateAfter start (calls ++ [⟨now, call, result.1⟩]) := by
  intro result
  rw [stateAfter_snoc]
  cases call with
  | add paths => rfl
  | setWindow window => rfl
  | clear => rfl
  | take =>
    have after : result.2 = _ := take_after now (stateAfter start calls)
    rw [after]
    cases given : (take now (stateAfter start calls)).1 with
    | none =>
      simp only [result, perform, given]
      rfl
    | some batch =>
      simp only [result, perform, given]
      rfl

theorem run_state (window : Nat) (calls : List (Nat × Call)) :
    (run window calls).state = stateAfter window (run window calls).calls := by
  induction calls using List.reverseRecOn with
  | nil => rfl
  | append_singleton before last inductionHypothesis =>
    rw [run_snoc, follow, inductionHypothesis]
    exact perform_stateAfter window last.1 _ last.2

/-- The calls that were made are those of the run, at their times. -/
theorem run_calls (window : Nat) (calls : List (Nat × Call)) :
    (run window calls).calls.map (fun made => (made.time, made.call)) = calls := by
  induction calls using List.reverseRecOn with
  | nil => rfl
  | append_singleton before last inductionHypothesis =>
    rw [run_snoc, follow, List.map_append, inductionHypothesis]
    rfl

/-- Paths were added last when some call was made. -/
theorem lastAdded_time (calls : List Made) (last : Nat)
    (added : lastAdded (unsettled calls) = some last) : last ∈ calls.map Made.time := by
  obtain ⟨made, member, time⟩ := List.mem_filterMap.mp (List.mem_of_getLast? added)
  have within : made ∈ calls := (List.rtakeWhile_suffix _ _).subset member
  refine List.mem_map.mpr ⟨made, within, ?_⟩
  unfold Made.addedAt? at time
  split at time
  · exact Option.some.inj time
  · simp at time

/-- **Waiting for quiet loses nothing and ends in time.** Let paths be added, windows be changed,
changes be forgotten and batches be asked for in any order, each at its time. When a batch is asked
for next, there is one exactly when paths were added since the last batch was given or the changes
were forgotten, be it an empty list of paths, and that is as long ago as the window in force. It
holds all paths that were added since then, and each of them once. Where there is none, nothing
changes. As long as changes wait, the time to wait is at least a millisecond, and at most that or
the window in force; and whoever asks when it is over, with no call in between, is given a batch.

Proof: every call keeps the state at what the calls so far amount to. Times do not go back, so
the time that is left of the window is over after the time to wait. -/
theorem batches_lose_nothing (window : Nat) (calls : List (Nat × Call)) (millisecond now : Nat)
    (ordered : (calls.map Prod.fst ++ [now]).Pairwise (· ≤ ·)) :
    let history := run window calls
    let since := unsettled history.calls
    let inForce := windowAfter window history.calls
    let answer := history.state.take now
    let wait := history.state.waitIn millisecond now
    ((∃ batch, answer.1 = some batch) ↔
      ∃ last, lastAdded since = some last ∧ inForce ≤ now - last) ∧
    (∀ batch, answer.1 = some batch → Batches (added since) batch) ∧
    (answer.1 = none → answer.2 = history.state) ∧
    ((lastAdded since).isSome = true →
      millisecond ≤ wait ∧ wait ≤ max inForce millisecond ∧
      ∀ later, now + wait ≤ later →
        ∃ batch, (history.state.take later).1 = some batch ∧ Batches (added since) batch) := by
  intro history since inForce answer wait
  have given (time : Nat) (batch : List Path) : (history.state.take time).1 = some batch ↔
      (∃ last, lastAdded since = some last ∧ inForce ≤ time - last) ∧
        batch = Path.setOf (added since) := by
    rw [take_batch_iff, run_state]
    rfl
  refine ⟨?_, ?_, ?_, ?_⟩
  · simp only [answer, given, exists_and_left, exists_eq, and_true]
  · intro batch taken
    obtain ⟨-, rfl⟩ := (given now batch).mp taken
    exact batches_setOf _
  · intro nothing
    rw [take_after, nothing]
    rfl
  · intro pending
    obtain ⟨last, addition⟩ := Option.isSome_iff_exists.mp pending
    have left : wait = max millisecond (inForce - (now - last)) := by
      have recorded : history.state.last = some last := by rw [run_state]; exact addition
      have windows : history.state.window = inForce := by rw [run_state]; rfl
      simp only [wait, waitIn, recorded, windows]
    have past : last ≤ now := by
      have made := lastAdded_time history.calls last addition
      rw [← run_calls window calls, List.map_map] at ordered
      exact (List.pairwise_append.mp ordered).2.2 last made now (List.mem_singleton_self _)
    refine ⟨by omega, by omega, fun later waited => ?_⟩
    exact ⟨_, (given later _).mpr ⟨⟨last, addition, by omega⟩, rfl⟩, batches_setOf _⟩

/-- Two bursts, of which the second names a path again, before a shorter window comes into force. -/
def bursts : List (Nat × Call) :=
  [(0, .add [⟨"/p/a.sk"⟩]), (100, .take), (200, .add [⟨"/p//a.sk"⟩, ⟨"/p/b.sk"⟩]),
    (210, .setWindow 50)]

/-- Nothing is given too early, and all is given when the time to wait is over. -/
theorem bursts_taken_together :
    (bursts.map Prod.fst ++ [220]).Pairwise (· ≤ ·) ∧
      ((run 300 bursts).state.take 220).1 = none ∧
      (run 300 bursts).state.waitIn 1 220 = 30 ∧
      ∃ batch, ((run 300 bursts).state.take 250).1 = some batch ∧
        Batches [⟨"/p/a.sk"⟩, ⟨"/p//a.sk"⟩, ⟨"/p/b.sk"⟩] batch := by
  have ordered : (bursts.map Prod.fst ++ [220]).Pairwise (· ≤ ·) := by decide
  have last : lastAdded (unsettled (run 300 bursts).calls) = some 200 := by decide
  have paths : added (unsettled (run 300 bursts).calls) =
      [⟨"/p/a.sk"⟩, ⟨"/p//a.sk"⟩, ⟨"/p/b.sk"⟩] := by decide
  have window : windowAfter 300 (run 300 bursts).calls = 50 := by decide
  have wait : (run 300 bursts).state.waitIn 1 220 = 30 := by decide
  obtain ⟨due, -, -, waits⟩ := batches_lose_nothing 300 bursts 1 220 ordered
  rw [last, window] at due
  obtain ⟨-, -, given⟩ := waits (by rw [last]; rfl)
  rw [paths, wait] at given
  refine ⟨ordered, ?_, wait, given 250 (by decide)⟩
  cases early : ((run 300 bursts).state.take 220).1 with
  | none => rfl
  | some batch =>
    obtain ⟨time, same, passed⟩ := due.mp ⟨batch, early⟩
    obtain rfl := Option.some.inj same
    exact absurd passed (by decide)

end Debouncer
end BuildWatch
