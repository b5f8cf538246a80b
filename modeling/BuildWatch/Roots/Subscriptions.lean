import BuildWatch.Roots.Diff
import BuildWatch.Terminal.Note

/-!
# Subscriptions to roots

Every wanted root that is there has a subscription, which tells of changes below
it. A new set of roots is compared with the old one: dropped roots lose their
subscriptions, added ones get theirs, and roots in both keep what they have. A
root that is not there yet is subscribed to when it appears. A subscription ends
with its folder, so it is forgotten when the folder is gone.
-/

namespace BuildWatch

/-- What is asked of the system that tells of changes. -/
inductive SubscriptionCall where
  | watch (root : Path)
  | unwatch (root : Path)
  deriving DecidableEq, Repr

/-- What subscriptions depend on: which paths lead to something, and what calls are
refused with which words. -/
structure Surroundings where
  has : Path → Bool
  refusal? : SubscriptionCall → Option String := fun _ => none

/-- The wanted roots and those with a subscription, both sets of paths. -/
structure Subscriptions where
  wanted : List Path := []
  live : List Path := []
  deriving DecidableEq, Repr

namespace Subscriptions

/-- What one step does: the state after it, the calls made and what is told to the
user, both in order, and its result. -/
structure Turn (α : Type) where
  after : Subscriptions
  calls : List SubscriptionCall := []
  notes : List Terminal.Note := []
  result : α

/-- Subscribe to a root if it is there. The result says whether it was subscribed to. -/
def attach (around : Surroundings) (state : Subscriptions) (root : Path) : Turn Bool :=
  if !around.has root then
    { after := state, notes := [.detail "watch" ("root not found yet: " ++ root.text)], result := false }
  else
    match around.refusal? (.watch root) with
    | some reason =>
      { after := state
        calls := [.watch root]
        notes := [.log "watch" ("cannot watch " ++ root.text ++ ": " ++ reason)]
        result := false }
    | none =>
      { after := { state with live := Path.insertInto state.live root }
        calls := [.watch root]
        result := true }

/-- End the subscription to a root that has one. A refusal changes nothing. -/
def detach (around : Surroundings) (state : Subscriptions) (root : Path) : Turn Unit :=
  if root.memberOf state.live then
    { after := { state with live := Path.eraseFrom state.live root }
      calls := [.unwatch root]
      notes :=
        match around.refusal? (.unwatch root) with
        | some reason => [.detail "watch" ("unwatch " ++ root.text ++ ": " ++ reason)]
        | none => []
      result := () }
  else { after := state, result := () }

/-- End the subscriptions to dropped roots. -/
def detachAll (around : Surroundings) (state : Subscriptions) : List Path → Turn Unit
  | [] => { after := state, result := () }
  | root :: rest =>
    let first := detach around state root
    let later := detachAll around first.after rest
    { after := later.after
      calls := first.calls ++ later.calls
      notes := first.notes ++ [.detail "watch" ("root removed: " ++ root.text)] ++ later.notes
      result := () }

/-- Subscribe to added roots. -/
def attachAll (around : Surroundings) (state : Subscriptions) : List Path → Turn Unit
  | [] => { after := state, result := () }
  | root :: rest =>
    let first := attach around state root
    let later := attachAll around first.after rest
    { after := later.after
      calls := first.calls ++ later.calls
      notes := first.notes ++ [.detail "watch" ("root added: " ++ root.text)] ++ later.notes
      result := () }

/-- Change the set of wanted roots. The result is the difference. -/
def update (around : Surroundings) (state : Subscriptions) (roots : List Path) : Turn RootsDiff :=
  let wanted := Path.setOf roots
  let diff := RootsDiff.between state.wanted wanted
  let dropped := detachAll around state diff.removed
  let added := attachAll around dropped.after diff.added
  { after := { added.after with wanted := wanted }
    calls := dropped.calls ++ added.calls
    notes := dropped.notes ++ added.notes
    result := diff }

/-- Subscribe again to roots. The result says whether any was subscribed to. -/
def attachMissing (around : Surroundings) (state : Subscriptions) : List Path → Turn Bool
  | [] => { after := state, result := false }
  | root :: rest =>
    let first := attach around state root
    let later := attachMissing around first.after rest
    { after := later.after
      calls := first.calls ++ later.calls
      notes := first.notes ++
        (if first.result then [.detail "watch" ("re-attached watch: " ++ root.text)] else []) ++
        later.notes
      result := first.result || later.result }

/-- Forget the subscriptions whose folders are gone, and subscribe to the wanted
roots that are there and have none. -/
def maintain (around : Surroundings) (state : Subscriptions) : Turn Bool :=
  let state := { state with live := state.live.filter around.has }
  attachMissing around state
    (state.wanted.filter fun root => !root.memberOf state.live && around.has root)

/-- The wanted roots in order. -/
def roots (state : Subscriptions) : List Path := Path.sort state.wanted

/-- Whether some wanted root has no subscription. -/
def hasMissing (state : Subscriptions) : Bool := state.live.length < state.wanted.length

/-- Whether a root has a subscription. -/
def isLive (state : Subscriptions) (root : Path) : Bool := root.memberOf state.live

end Subscriptions
end BuildWatch
