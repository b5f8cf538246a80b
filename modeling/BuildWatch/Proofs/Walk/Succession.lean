import BuildWatch.Proofs.Walk.Ledger

/-!
# One walk after another

Walks are started, stopped and asked for their files, and in between something happens to
any walk that was ever started: operations of a walk that was replaced long ago still end,
and such a walk still goes on. All this comes in any order.

A run keeps the walks and the lists that were given out, each with the number of its walk.
The active walk is the one that was started last, and what happened to it since is all that
matters to it. A walk that is not active any more was cancelled or has given out its files.
-/

namespace BuildWatch.Walks

/-- All walks, in the order in which they were started. -/
def all (walks : Walks) : List Walk := walks.earlier ++ walks.active.toList

/-- The walks after something happened to the one of a number. -/
def happenAt (walks : Walks) (number : Nat) (happening : Walk.Happening) : Walks where
  earlier := walks.earlier.modify number (·.happen happening)
  active :=
    if number = walks.earlier.length then walks.active.map (·.happen happening) else walks.active

theorem all_length (walks : Walks) :
    walks.all.length = walks.earlier.length + walks.active.toList.length := by
  rw [all, List.length_append]

/-- A new walk is active, and its number is how many walks were started before it. -/
theorem start_active (walks : Walks) (roots : List Path) :
    (walks.start roots).active = some (Walk.start roots) ∧
      (walks.start roots).earlier.length = walks.all.length := by
  refine ⟨rfl, ?_⟩
  cases active : walks.active <;> simp [start, cancel, all, active]

/-- What happens to a walk sets none aside. -/
theorem happenAt_length (walks : Walks) (number : Nat) (happening : Walk.Happening) :
    (walks.happenAt number happening).earlier.length = walks.earlier.length :=
  List.length_modify _ _ _

/-- One thing that happens to the walks. -/
inductive Happening where
  | start (roots : List Path)
  | cancel
  | poll
  | within (number : Nat) (happening : Walk.Happening)

/-- The walks, and the lists that were given out with the numbers of their walks. -/
structure History where
  walks : Walks := {}
  given : List (Nat × List Path) := []

/-- What a reply gives out for the active walk of some walks. -/
def givenBy (walks : Walks) : Reply → List (Nat × List Path)
  | .files files => [(walks.earlier.length, files)]
  | .waiting => []
  | .lost => []

/-- The history after a happening. -/
def History.follow (history : History) : Happening → History
  | .start roots => { history with walks := history.walks.start roots }
  | .cancel => { history with walks := history.walks.cancel }
  | .poll => ⟨history.walks.poll.2, history.given ++ givenBy history.walks history.walks.poll.1⟩
  | .within number happening => { history with walks := history.walks.happenAt number happening }

/-- The history of some happenings. -/
def run (happenings : List Happening) : History := happenings.foldl History.follow {}

theorem run_snoc (happenings : List Happening) (happening : Happening) :
    run (happenings ++ [happening]) = (run happenings).follow happening := by
  simp [run]

/-- Whether a happening lets the active walk be. -/
def Happening.Spares : Happening → Prop
  | .start _ => False
  | .cancel => False
  | .poll => True
  | .within _ _ => True

/-- What happens to the walk of a number. -/
def Happening.own? (number : Nat) : Happening → Option Walk.Happening
  | .within other happening => if other = number then some happening else none
  | .start _ => none
  | .cancel => none
  | .poll => none

/-- What the operations of a walk report in some happenings. -/
def Told (happenings : List Walk.Happening) (operation : Walk.Operation) (result : Walk.Result) :
    Prop :=
  ∃ view position, Walk.Happening.ends view position ∈ happenings ∧ result = operation.perform view

/-- The walks that are not active were cancelled or have given out their files; the lists
that were given out are their answers, each given once. -/
structure Settled (earlier : List Walk) (given : List (Nat × List Path)) : Prop where
  replaced : ∀ number walk, earlier[number]? = some walk →
    walk.cancelled = true ∨ ∃ files, (number, files) ∈ given
  answered : ∀ number files, (number, files) ∈ given →
    ∃ walk, earlier[number]? = some walk ∧ walk.answer = some files ∧ walk.ended = true ∧
      walk.running = []
  once : (given.map Prod.fst).Pairwise (· < ·)

namespace Settled

variable {earlier : List Walk} {given : List (Nat × List Path)}

/-- A walk that is set aside gets the next number. -/
theorem number_aside (walk other : Walk) (number : Nat)
    (there : (earlier ++ [walk])[number]? = some other) :
    earlier[number]? = some other ∨ number = earlier.length ∧ other = walk := by
  rw [List.getElem?_append] at there
  split_ifs at there with before
  · exact Or.inl there
  · obtain ⟨zero, rfl⟩ : number - earlier.length = 0 ∧ other = walk := by
      simpa [List.getElem?_singleton, eq_comm] using there
    exact Or.inr ⟨by omega, rfl⟩

/-- Lists were only given out for walks that are there. -/
theorem bound (settled : Settled earlier given) (number : Nat) (files : List Path)
    (member : (number, files) ∈ given) : number < earlier.length := by
  obtain ⟨walk, there, -⟩ := settled.answered number files member
  exact (List.getElem?_eq_some_iff.mp there).1

/-- An answer that was given out stays where it is when a walk is set aside. -/
theorem answered_append (settled : Settled earlier given) (walk : Walk) (number : Nat)
    (files : List Path) (member : (number, files) ∈ given) :
    ∃ other, (earlier ++ [walk])[number]? = some other ∧ other.answer = some files ∧
      other.ended = true ∧ other.running = [] := by
  obtain ⟨other, there, rest⟩ := settled.answered number files member
  refine ⟨other, ?_, rest⟩
  rw [List.getElem?_append_left (settled.bound number files member), there]

/-- A cancelled walk can be set aside. -/
theorem cancelled (settled : Settled earlier given) (walk : Walk) (cancelled : walk.cancelled = true) :
    Settled (earlier ++ [walk]) given := by
  refine ⟨?_, settled.answered_append walk, settled.once⟩
  intro number other there
  rcases number_aside walk other number there with before | ⟨-, rfl⟩
  · exact settled.replaced number other before
  · exact Or.inl cancelled

/-- A walk can be set aside when its answer is given out. -/
theorem givenOut (settled : Settled earlier given) (walk : Walk) (files : List Path)
    (answers : walk.answer = some files) (ended : walk.ended = true) (idle : walk.running = []) :
    Settled (earlier ++ [walk]) (given ++ [(earlier.length, files)]) := by
  refine ⟨?_, ?_, ?_⟩
  · intro number other there
    rcases number_aside walk other number there with before | ⟨rfl, rfl⟩
    · refine (settled.replaced number other before).imp id ?_
      rintro ⟨list, member⟩
      exact ⟨list, List.mem_append_left _ member⟩
    · exact Or.inr ⟨files, by simp⟩
  · intro number list member
    rcases List.mem_append.mp member with before | last
    · exact settled.answered_append walk number list before
    · obtain ⟨rfl, rfl⟩ : number = earlier.length ∧ list = files := by simpa using last
      exact ⟨walk, List.getElem?_concat_length, answers, ended, idle⟩
  · rw [List.map_append, List.pairwise_append]
    refine ⟨settled.once, List.pairwise_singleton _ _, ?_⟩
    simp only [List.mem_map, List.map_cons, List.map_nil, List.mem_singleton]
    rintro number ⟨⟨other, list⟩, member, rfl⟩ last rfl
    exact settled.bound other list member

/-- What happens to a walk that was set aside changes nothing in this. -/
theorem happens (settled : Settled earlier given) (number : Nat) (happening : Walk.Happening) :
    Settled (earlier.modify number (·.happen happening)) given := by
  refine ⟨?_, ?_, settled.once⟩
  · intro other walk there
    rw [List.getElem?_modify, Option.map_eq_map, Option.map_eq_some_iff] at there
    obtain ⟨before, there, rfl⟩ := there
    refine (settled.replaced other before there).imp (fun cancelled => ?_) id
    split_ifs <;> simp [cancelled]
  · intro other files member
    obtain ⟨walk, there, answers, ended, idle⟩ := settled.answered other files member
    refine ⟨walk, ?_, answers, ended, idle⟩
    rw [List.getElem?_modify, there, Option.map_eq_map, Option.map_some,
      Walk.answered_happen walk happening ended idle, ite_self]

end Settled

/-- What the active walk is: the one that was started last, after what happened to it since. -/
def Latest (happenings : List Happening) (walks : Walks) : Prop :=
  ∀ walk, walks.active = some walk →
    ∃ before roots after, happenings = before ++ .start roots :: after ∧
      (∀ happening ∈ after, happening.Spares) ∧
      walk = Walk.run roots (after.filterMap (Happening.own? walks.earlier.length))

/-- The active walk is live: all that happened to it is that it went on. -/
theorem Latest.live {happenings : List Happening} {walks : Walks} (latest : Latest happenings walks)
    (walk : Walk) (active : walks.active = some walk) : walk.Live := by
  obtain ⟨before, roots, after, -, -, rfl⟩ := latest walk active
  exact Walk.live_run roots _

/-- A happening that spares the active walk keeps it the latest one. -/
theorem Latest.spared {happenings : List Happening} {walks after : Walks} {happening : Happening}
    (latest : Latest happenings walks) (spares : happening.Spares)
    (numbered : after.earlier.length = walks.earlier.length)
    (same : after.active =
      match happening.own? walks.earlier.length with
      | some own => walks.active.map (·.happen own)
      | none => walks.active) :
    Latest (happenings ++ [happening]) after := by
  intro walk active
  have earlier : ∃ old, walks.active = some old ∧
      walk = ((happening.own? walks.earlier.length).toList.foldl Walk.happen old) := by
    rw [same] at active
    cases own : happening.own? walks.earlier.length with
    | none => exact ⟨walk, by simpa [own] using active, by simp⟩
    | some own' =>
      rw [own] at active
      obtain ⟨old, there, rfl⟩ := Option.map_eq_some_iff.mp active
      exact ⟨old, there, by simp⟩
  obtain ⟨old, there, rfl⟩ := earlier
  obtain ⟨before, roots, since, rfl, others, rfl⟩ := latest old there
  refine ⟨before, roots, since ++ [happening], by simp, ?_, ?_⟩
  · intro other member
    rcases List.mem_append.mp member with earlier | last
    · exact others other earlier
    · obtain rfl := List.mem_singleton.mp last
      exact spares
  · rw [numbered, List.filterMap_append, Walk.run, Walk.run, List.foldl_append]
    cases own : happening.own? walks.earlier.length <;> simp [own]

/-- Whoever asks a live walk for its files waits, or gets its answer. -/
theorem poll_eq (walks : Walks) (live : ∀ walk, walks.active = some walk → walk.Live) :
    (walks.poll = (.waiting, walks) ∧ ∀ walk, walks.active = some walk → walk.answer = none) ∨
    ∃ walk files, walks.active = some walk ∧ walk.answer = some files ∧ walk.ended = true ∧
      walk.running = [] ∧
      walks.poll = (.files files, { earlier := walks.earlier ++ [walk], active := none }) := by
  cases active : walks.active with
  | none => exact Or.inl ⟨by simp [poll, active], by simp⟩
  | some walk =>
    rcases (live walk active).answer with ⟨unended, silent⟩ | ⟨files, ended, answers, idle⟩
    · refine Or.inl ⟨by simp [poll, active, unended], ?_⟩
      intro other same
      obtain rfl := Option.some.inj same
      exact silent
    · exact Or.inr ⟨walk, files, rfl, answers, ended, idle, by simp [poll, active, ended, answers]⟩

/-- What holds of the walks and of what was given out after any happenings. -/
structure Orderly (happenings : List Happening) (history : History) : Prop where
  latest : Latest happenings history.walks
  settled : Settled history.walks.earlier history.given

/-- To stop the active walk sets it aside. -/
theorem Settled.cancel {walks : Walks} {given : List (Nat × List Path)}
    (settled : Settled walks.earlier given) : Settled walks.cancel.earlier given := by
  cases active : walks.active with
  | none => simpa [Walks.cancel, active] using settled
  | some walk => simpa [Walks.cancel, active] using settled.cancelled walk.cancel rfl

theorem orderly_follow (happenings : List Happening) (happening : Happening) (history : History)
    (orderly : Orderly happenings history) :
    Orderly (happenings ++ [happening]) (history.follow happening) := by
  obtain ⟨latest, settled⟩ := orderly
  cases happening with
  | start roots =>
    refine ⟨?_, settled.cancel⟩
    intro walk active
    obtain rfl : Walk.start roots = walk := by simpa [History.follow, Walks.start] using active
    exact ⟨happenings, roots, [], rfl, by simp, rfl⟩
  | cancel =>
    refine ⟨?_, settled.cancel⟩
    intro walk active
    simp [History.follow, Walks.cancel] at active
  | poll =>
    rcases poll_eq _ latest.live with ⟨waits, -⟩ | ⟨walk, files, -, answers, ended, idle, gives⟩
    · simp only [History.follow, waits, givenBy, List.append_nil]
      exact ⟨latest.spared trivial rfl rfl, settled⟩
    · simp only [History.follow, gives, givenBy]
      refine ⟨?_, settled.givenOut walk files answers ended idle⟩
      intro other active
      simp at active
  | within number own =>
    refine ⟨latest.spared trivial (happenAt_length _ _ _) ?_, settled.happens number own⟩
    by_cases same : number = history.walks.earlier.length <;>
      simp [History.follow, happenAt, Happening.own?, same]

/-- Every run is orderly. -/
theorem run_orderly (happenings : List Happening) : Orderly happenings (run happenings) := by
  induction happenings using List.reverseRecOn with
  | nil =>
    refine ⟨?_, ?_, ?_, List.Pairwise.nil⟩
    · intro walk active
      simp [run] at active
    · intro number walk there
      simp [run] at there
    · intro number files member
      simp [run] at member
  | append_singleton before happening inductionHypothesis =>
    rw [run_snoc]
    exact orderly_follow before happening _ inductionHypothesis

/-- A walk that was set aside keeps its number, and only what happens to it changes it. -/
theorem earlier_follow (happening : Happening) (history : History) (number : Nat) (walk : Walk)
    (there : history.walks.earlier[number]? = some walk) :
    (history.follow happening).walks.earlier[number]? = some walk ∨
      ∃ own, (history.follow happening).walks.earlier[number]? = some (walk.happen own) := by
  have bound := (List.getElem?_eq_some_iff.mp there).1
  cases happening with
  | start roots | cancel =>
    left
    simp only [History.follow, Walks.start, Walks.cancel, List.getElem?_append_left bound]
    exact there
  | poll =>
    left
    simp only [History.follow, poll]
    split
    · exact there
    · split
      · rw [List.getElem?_append_left bound]
        exact there
      · exact there
  | within other own =>
    by_cases same : other = number
    · exact Or.inr ⟨own, by simp [History.follow, happenAt, there, same]⟩
    · exact Or.inl (by simp [History.follow, happenAt, there, same])

/-- A walk that was set aside without an answer never answers. -/
theorem silent_run (happenings more : List Happening) (number : Nat) (walk : Walk)
    (there : (run happenings).walks.earlier[number]? = some walk) (cancelled : walk.cancelled = true)
    (silent : walk.answer = none) :
    ∃ later, (run (happenings ++ more)).walks.earlier[number]? = some later ∧
      later.cancelled = true ∧ later.answer = none := by
  induction more using List.reverseRecOn with
  | nil => exact ⟨walk, by simpa using there, cancelled, silent⟩
  | append_singleton before happening inductionHypothesis =>
    obtain ⟨later, there, cancelled, silent⟩ := inductionHypothesis
    rw [← List.append_assoc, run_snoc]
    rcases earlier_follow happening _ number later there with still | ⟨own, changed⟩
    · exact ⟨later, still, cancelled, silent⟩
    · exact ⟨_, changed, Walk.stopped_happen later own cancelled silent⟩

/-- A cancelled walk is not the active one. -/
theorem cancelled_earlier (happenings : List Happening) (number : Nat) (walk : Walk)
    (there : (run happenings).walks.all[number]? = some walk) (cancelled : walk.cancelled = true) :
    (run happenings).walks.earlier[number]? = some walk := by
  rw [all] at there
  cases active : (run happenings).walks.active with
  | none => simpa [active] using there
  | some last =>
    rw [active, Option.toList_some] at there
    rcases Settled.number_aside last walk number there with before | ⟨-, rfl⟩
    · exact before
    · have live := ((run_orderly happenings).latest.live walk active).kept
      simp [live] at cancelled

/-- **A walk that was stopped or replaced gives no files.** Walks are started, stopped and asked
for their files, and things happen to all of them, in any order.

The active walk is not cancelled, and every other was cancelled or has given out its files.
Whoever asks for files waits, and then nothing is changed by it, or gets the answer of the
active walk as soon as there is one; the walk was never lost. The walk that answers was started
last, what happened to it since made it answer, and it has nothing outstanding: its files are
all that its operations lead to by what they reported. No walk gives out files twice. A walk
that was cancelled before it answered never answers and never gives out files, whatever happens
later. To cancel again changes nothing.

Proof: every happening keeps the active walk the latest and the others settled. -/
theorem only_latest_walk_answers (happenings : List Happening) :
    (∀ walk, (run happenings).walks.active = some walk → walk.cancelled = false) ∧
    (∀ number walk, (run happenings).walks.earlier[number]? = some walk →
      walk.cancelled = true ∨ ∃ files, (number, files) ∈ (run happenings).given) ∧
    (run happenings).walks.poll.1 ≠ .lost ∧
    ((run happenings).walks.poll.1 = .waiting →
      (run happenings).walks.poll.2 = (run happenings).walks ∧
      ∀ walk, (run happenings).walks.active = some walk → walk.answer = none) ∧
    (∀ files, (run happenings).walks.poll.1 = .files files →
      ∃ before roots after own, happenings = before ++ .start roots :: after ∧
        (∀ happening ∈ after, happening.Spares) ∧
        own = after.filterMap (Happening.own? (run happenings).walks.earlier.length) ∧
        (run happenings).walks.active = some (Walk.run roots own) ∧
        (Walk.run roots own).answer = some files ∧ (Walk.run roots own).running = [] ∧
        (Walk.run roots own).arrived = [] ∧ (Walk.run roots own).outstanding = 0 ∧
        Walk.Yields (Told own) (roots.map .list) files) ∧
    ((run happenings).given.map Prod.fst).Pairwise (· < ·) ∧
    (∀ number walk, (run happenings).walks.all[number]? = some walk → walk.cancelled = true →
      walk.answer = none →
      ∀ more, (∃ later, (run (happenings ++ more)).walks.all[number]? = some later ∧
          later.answer = none) ∧
        ∀ files, (number, files) ∉ (run (happenings ++ more)).given) ∧
    (run happenings).walks.cancel.cancel = (run happenings).walks.cancel ∧
    ∀ walk : Walk, walk.cancel.cancel = walk.cancel := by
  obtain ⟨latest, settled⟩ := run_orderly happenings
  refine ⟨fun walk active => (latest.live walk active).kept, settled.replaced, ?_, ?_, ?_, settled.once,
    ?_, ?_, fun walk => rfl⟩
  · rcases poll_eq _ latest.live with ⟨waits, -⟩ | ⟨walk, files, -, -, -, -, gives⟩
    · simp [waits]
    · simp [gives]
  · intro waiting
    rcases poll_eq _ latest.live with ⟨waits, silent⟩ | ⟨walk, files, -, -, -, -, gives⟩
    · exact ⟨by rw [waits], silent⟩
    · simp [gives] at waiting
  · intro files asked
    rcases poll_eq _ latest.live with ⟨waits, -⟩ | ⟨walk, found, active, answers, ended, idle, gives⟩
    · simp [waits] at asked
    · obtain rfl : found = files := by simpa [gives] using asked
      obtain ⟨before, roots, after, split, spares, rfl⟩ := latest walk active
      set own := after.filterMap (Happening.own? (run happenings).walks.earlier.length) with own_eq
      obtain ⟨same, live, stage⟩ := Walk.stage_run (Told own) roots own fun happening member => by
        cases happening with
        | ends view position => exact fun operation => ⟨view, position, member, rfl⟩
        | goesOn => trivial
      refine ⟨before, roots, after, own, split, spares, own_eq, active, answers, idle, ?_⟩
      cases stage with
      | going _ unended _ _ => simp [unended] at ended
      | stopped cancelled _ => simp [live] at cancelled
      | answered files _ given _ empty settled complete =>
        obtain rfl : files = found := Option.some.inj (given.symm.trans answers)
        exact ⟨empty, settled, same ▸ complete⟩
  · intro number walk there cancelled silent more
    have before := cancelled_earlier happenings number walk there cancelled
    obtain ⟨later, still, -, quiet⟩ := silent_run happenings more number walk before cancelled silent
    refine ⟨⟨later, ?_, quiet⟩, fun files member => ?_⟩
    · rw [all, List.getElem?_append_left (List.getElem?_eq_some_iff.mp still).1]
      exact still
    · have settledAfter := (run_orderly (happenings ++ more)).settled
      obtain ⟨other, here, answers, -⟩ := settledAfter.answered number files member
      obtain rfl : later = other := Option.some.inj (still.symm.trans here)
      simp [quiet] at answers
  · simp [Walks.cancel]

/-- A walk of no roots answers at once, but is replaced before it is asked. -/
example :
    (run [.start [], .within 0 .goesOn, .start [], .poll, .within 1 .goesOn, .poll, .poll]).given =
      [(1, [])] := by decide

end BuildWatch.Walks
