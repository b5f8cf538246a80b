import BuildWatch.Walk.Walks
import Mathlib.Algebra.Order.Group.Multiset
import Mathlib.Data.List.Induction
import Mathlib.Tactic.Abel

/-!
# The ledger of a walk

A walk is made of two kinds of moments: an operation ends, with what it sees of the files
at that moment, and the walk goes on by one result. They come in any order.

What a walk has still to find is on its ledger: the operations that run, those that the
results not taken in will make it issue, and the files that are known already. Whatever
the open operations will report, these reports complete the known files to what the roots
hold. So when nothing is open any more, the known files are all of them, and the order of
the moments has no part in it.

The files may change while a walk goes on, so what an operation reports is a relation.
-/

namespace BuildWatch.Walk

/-- The operations that a result makes a walk issue. -/
def Result.issues : Result → List Operation
  | .listed entries => (entries.filter (!Path.isHidden ·)).map .inspect
  | .inspected _ .file => []
  | .inspected entry .folder => [.list entry]
  | .inspected _ .other => []
  | .failed _ _ => []

/-- The files that a result reports. -/
def Result.files : Result → List Path
  | .listed _ => []
  | .inspected entry .file => [entry]
  | .inspected _ .folder => []
  | .inspected _ .other => []
  | .failed _ _ => []

/-- To take in a result is to issue its operations and to note its files. -/
theorem takeIn_value (walk : Walk) (result : Result) :
    (takeIn walk result).value =
      { walk.issue result.issues with files := walk.files ++ result.files } := by
  cases result with
  | listed entries => simp [takeIn, Result.issues, Result.files, Noted.quiet, issue]
  | inspected entry kind =>
    cases kind <;> simp [takeIn, Result.issues, Result.files, Noted.quiet, issue]
  | failed operation fault => simp [takeIn, Result.issues, Result.files, issue]

/-- One thing that happens to a walk: a running operation ends, with the files as they
are then, or the walk goes on. -/
inductive Happening where
  | ends (view : View) (position : Nat)
  | goesOn

/-- The walk after a happening. -/
def happen (walk : Walk) : Happening → Walk
  | .ends view position => walk.complete view position
  | .goesOn => walk.advance.value

/-- A walk of some roots after some happenings. -/
def run (roots : List Path) (happenings : List Happening) : Walk :=
  happenings.foldl happen (start roots)

theorem run_snoc (roots : List Path) (happenings : List Happening) (happening : Happening) :
    run roots (happenings ++ [happening]) = (run roots happenings).happen happening := by
  simp [run]

/-- What the operations that end in a happening report is among what is told. -/
def Happening.Reports (told : Operation → Result → Prop) : Happening → Prop
  | .ends view _ => ∀ operation, told operation (operation.perform view)
  | .goesOn => True

/-- The files that some operations lead to, when each operation reports one of the results
that are told of it: those in its result, and those that the operations issued for the
result lead to. -/
inductive Yields (told : Operation → Result → Prop) : List Operation → Multiset Path → Prop
  | nothing : Yields told [] 0
  | operation (operation : Operation) (result : Result) (others : List Operation)
      (below aside : Multiset Path) (reported : told operation result)
      (inner : Yields told result.issues below) (outer : Yields told others aside) :
      Yields told (operation :: others) (result.files + below + aside)

namespace Yields

variable {told : Operation → Result → Prop}

theorem split (operations others : List Operation) (all : Multiset Path)
    (yields : Yields told (operations ++ others) all) :
    ∃ files aside, Yields told operations files ∧ Yields told others aside ∧ all = files + aside := by
  induction operations generalizing all with
  | nil => exact ⟨0, all, Yields.nothing, yields, (zero_add all).symm⟩
  | cons operation rest inductionHypothesis =>
    cases yields with
    | operation _ result _ below beside reported inner outer =>
      obtain ⟨files, aside, first, second, rfl⟩ := inductionHypothesis beside outer
      exact ⟨_, aside, Yields.operation operation result rest below files reported inner first, second,
        (add_assoc _ _ _).symm⟩

/-- The order of the operations does not matter. -/
theorem perm (operations others : List Operation) (files : Multiset Path)
    (same : operations.Perm others) (yields : Yields told operations files) :
    Yields told others files := by
  induction same generalizing files with
  | nil => exact yields
  | cons operation _ inductionHypothesis =>
    cases yields with
    | operation _ result _ below aside reported inner outer =>
      exact Yields.operation operation result _ below aside reported inner
        (inductionHypothesis aside outer)
  | swap first second rest =>
    cases yields with
    | operation _ result _ below aside reported inner outer =>
      cases outer with
      | operation _ other _ under beside claims within outside =>
        have swapped := Yields.operation first other _ under _ claims within
          (Yields.operation second result rest below beside reported inner outside)
        rwa [show (other.files : Multiset Path) + under + (result.files + below + beside) =
          result.files + below + (other.files + under + beside) by abel] at swapped
  | trans _ _ firstHypothesis secondHypothesis =>
    exact secondHypothesis files (firstHypothesis files yields)

end Yields

/-- The operations whose files are not known: those that run, and those that will be
issued for the results that wait. -/
def opened (walk : Walk) : List Operation := walk.running ++ walk.arrived.flatMap Result.issues

/-- The files that were found, also those in the results that wait. -/
def known (walk : Walk) : List Path := walk.files ++ walk.arrived.flatMap Result.files

/-- The count of a walk is exact, and what its open operations lead to makes its known
files complete. -/
structure Balanced (told : Operation → Result → Prop) (walk : Walk) : Prop where
  counted : walk.outstanding = walk.running.length + walk.arrived.length
  covers : ∀ more, Yields told walk.opened more →
    Yields told (walk.roots.map .list) (walk.known + more)

/-- A new walk knows nothing, and lists its roots. -/
theorem balanced_start (told : Operation → Result → Prop) (roots : List Path) :
    Balanced told (start roots) := by
  refine ⟨by simp [start], ?_⟩
  intro more yields
  simpa [opened, known, start] using yields

/-- An operation that ends has its result in its place on the ledger. -/
theorem balanced_arrived (told : Operation → Result → Prop) (walk : Walk) (position : Nat)
    (inside : position < walk.running.length) (result : Result) (balanced : Balanced told walk)
    (reported : told walk.running[position] result) :
    Balanced told { walk with
      running := walk.running.eraseIdx position
      arrived := walk.arrived ++ [result] } := by
  obtain ⟨counted, covers⟩ := balanced
  refine ⟨?_, ?_⟩
  · simp only [List.length_eraseIdx_of_lt inside, List.length_append, List.length_singleton]
    omega
  · intro more yields
    set waiting := walk.arrived.flatMap Result.issues with waiting_eq
    have first : Yields told (result.issues ++ (walk.running.eraseIdx position ++ waiting)) more := by
      refine Yields.perm _ _ _ ?_ yields
      simp only [opened, List.flatMap_append, List.flatMap_singleton, ← waiting_eq]
      rw [← List.append_assoc]
      exact List.perm_append_comm
    obtain ⟨below, aside, inner, outer, rfl⟩ := Yields.split _ _ _ first
    have before : Yields told walk.opened (result.files + below + aside) := by
      refine Yields.perm _ _ _ ?_ (Yields.operation _ result _ below aside reported inner outer)
      exact (List.getElem_cons_eraseIdx_perm inside).append_right waiting
    have complete := covers _ before
    simp only [known, List.flatMap_append, List.flatMap_singleton, ← Multiset.coe_add] at complete ⊢
    rwa [show (walk.files : Multiset Path) + (↑(walk.arrived.flatMap Result.files) + ↑result.files) +
      (below + aside) = walk.files + ↑(walk.arrived.flatMap Result.files) +
        (result.files + below + aside) by abel]

/-- A result that is taken in makes place for its operations and files. -/
theorem balanced_taken (told : Operation → Result → Prop) (walk : Walk) (result : Result)
    (rest : List Result) (oldest : walk.arrived = result :: rest) (balanced : Balanced told walk) :
    Balanced told
      (takeIn { walk with arrived := rest, outstanding := walk.outstanding - 1 } result).value := by
  obtain ⟨counted, covers⟩ := balanced
  rw [takeIn_value]
  rw [oldest, List.length_cons] at counted
  refine ⟨?_, ?_⟩
  · simp only [issue, List.length_append]
    omega
  · intro more yields
    have before : Yields told walk.opened more := by
      simp only [opened, issue, oldest, List.flatMap_cons] at yields ⊢
      rwa [← List.append_assoc]
    simpa only [known, issue, oldest, List.flatMap_cons, List.append_assoc] using covers more before

/-- A walk with nothing open has found everything. -/
theorem Balanced.complete (told : Operation → Result → Prop) (walk : Walk)
    (balanced : Balanced told walk) (settled : walk.outstanding = 0) :
    walk.running = [] ∧ walk.arrived = [] ∧ Yields told (walk.roots.map .list) walk.files := by
  obtain ⟨counted, covers⟩ := balanced
  have idle : walk.running = [] := List.eq_nil_of_length_eq_zero (by omega)
  have empty : walk.arrived = [] := List.eq_nil_of_length_eq_zero (by omega)
  refine ⟨idle, empty, ?_⟩
  have complete := covers 0 (by simpa [opened, idle, empty] using Yields.nothing)
  simpa [known, empty] using complete

/-- Where a walk stands: it goes on with a balanced ledger, it has answered with all files
and has nothing left to do, or it was cancelled before it answered. -/
inductive Stage (told : Operation → Result → Prop) (walk : Walk) : Prop
  | going (live : walk.cancelled = false) (unended : walk.ended = false)
      (silent : walk.answer = none) (balanced : Balanced told walk)
  | answered (files : List Path) (ended : walk.ended = true) (answers : walk.answer = some files)
      (idle : walk.running = []) (empty : walk.arrived = []) (settled : walk.outstanding = 0)
      (complete : Yields told (walk.roots.map .list) files)
  | stopped (cancelled : walk.cancelled = true) (silent : walk.answer = none)

theorem stage_start (told : Operation → Result → Prop) (roots : List Path) :
    Stage told (start roots) :=
  Stage.going rfl rfl rfl (balanced_start told roots)

/-- A cancelled walk that has not answered stays so, whatever happens to it. -/
theorem stopped_happen (walk : Walk) (happening : Happening) (cancelled : walk.cancelled = true)
    (silent : walk.answer = none) :
    (walk.happen happening).cancelled = true ∧ (walk.happen happening).answer = none := by
  cases happening with
  | ends view position =>
    cases issued : walk.running[position]? <;> simp [happen, complete, issued, cancelled, silent]
  | goesOn =>
    cases ended : walk.ended <;> simp [happen, advance, ended, cancelled, silent, Noted.quiet]

/-- A walk that has answered and has nothing left to do does not change. -/
theorem answered_happen (walk : Walk) (happening : Happening) (ended : walk.ended = true)
    (idle : walk.running = []) : walk.happen happening = walk := by
  cases happening with
  | ends view position => simp [happen, complete, idle]
  | goesOn => simp [happen, advance, ended, Noted.quiet]

/-- A walk that goes on takes in the oldest result, if one waits and is counted. -/
theorem advance_taken (walk : Walk) (result : Result) (rest : List Result)
    (live : walk.cancelled = false) (unended : walk.ended = false) (counted : walk.outstanding ≠ 0)
    (oldest : walk.arrived = result :: rest) :
    walk.advance =
      takeIn { walk with arrived := rest, outstanding := walk.outstanding - 1 } result := by
  simp [advance, live, unended, counted, oldest]

/-- A happening brings a walk from one stage to another, if what is reported in it is among
what is told. -/
theorem stage_happen (told : Operation → Result → Prop) (walk : Walk) (happening : Happening)
    (reports : happening.Reports told) (stage : Stage told walk) :
    Stage told (walk.happen happening) := by
  cases stage with
  | stopped cancelled silent =>
    obtain ⟨still, quiet⟩ := stopped_happen walk happening cancelled silent
    exact Stage.stopped still quiet
  | answered files ended answers idle empty settled complete =>
    rw [answered_happen walk happening ended idle]
    exact Stage.answered files ended answers idle empty settled complete
  | going live unended silent balanced =>
    cases happening with
    | ends view position =>
      by_cases inside : position < walk.running.length
      · have ends : walk.complete view position = { walk with
            running := walk.running.eraseIdx position
            arrived := walk.arrived ++ [walk.running[position].perform view] } := by
          simp [complete, inside, live]
        rw [happen, ends]
        exact Stage.going live unended silent
          (balanced_arrived told walk position inside _ balanced (reports _))
      · have outside : walk.complete view position = walk := by simp [complete, inside]
        rw [happen, outside]
        exact Stage.going live unended silent balanced
    | goesOn =>
      by_cases settled : walk.outstanding = 0
      · obtain ⟨idle, empty, complete⟩ := balanced.complete told walk settled
        have answers : walk.advance.value = { walk with ended := true, answer := some walk.files } := by
          simp [advance, live, unended, settled]
        rw [happen, answers]
        exact Stage.answered walk.files rfl rfl idle empty settled complete
      · cases oldest : walk.arrived with
        | nil =>
          have waits : walk.advance.value = walk := by
            simp [advance, live, unended, settled, oldest, Noted.quiet]
          rw [happen, waits]
          exact Stage.going live unended silent balanced
        | cons result rest =>
          rw [happen, advance_taken walk result rest live unended settled oldest]
          have taken := balanced_taken told walk result rest oldest balanced
          rw [takeIn_value] at taken ⊢
          exact Stage.going live unended silent taken

/-- Nothing that happens to a walk changes its roots, or whether it is cancelled. -/
theorem happen_keeps (walk : Walk) (happening : Happening) :
    (walk.happen happening).roots = walk.roots ∧
      (walk.happen happening).cancelled = walk.cancelled := by
  cases happening with
  | ends view position =>
    cases issued : walk.running[position]? <;> cases cancelled : walk.cancelled <;>
      simp [happen, complete, issued, cancelled]
  | goesOn =>
    simp only [happen, advance]
    split_ifs
    · exact ⟨rfl, rfl⟩
    · exact ⟨rfl, rfl⟩
    · exact ⟨rfl, rfl⟩
    · split
      · exact ⟨rfl, rfl⟩
      · rw [takeIn_value]
        exact ⟨rfl, rfl⟩

@[simp]
theorem happen_roots (walk : Walk) (happening : Happening) :
    (walk.happen happening).roots = walk.roots := (happen_keeps walk happening).1

@[simp]
theorem happen_cancelled (walk : Walk) (happening : Happening) :
    (walk.happen happening).cancelled = walk.cancelled := (happen_keeps walk happening).2

/-- A walk that nobody has cancelled, wherever it stands. -/
structure Live (walk : Walk) : Prop where
  kept : walk.cancelled = false
  stage : Stage (fun _ _ => True) walk

theorem live_start (roots : List Path) : Live (start roots) := ⟨rfl, stage_start _ roots⟩

theorem live_happen (walk : Walk) (happening : Happening) (live : Live walk) :
    Live (walk.happen happening) := by
  refine ⟨?_, stage_happen _ walk happening ?_ live.stage⟩
  · rw [happen_cancelled, live.kept]
  · cases happening <;> simp [Happening.Reports]

/-- A live walk goes on or has its answer ready. -/
theorem Live.answer {walk : Walk} (live : Live walk) :
    walk.ended = false ∧ walk.answer = none ∨
      ∃ files, walk.ended = true ∧ walk.answer = some files ∧ walk.running = [] := by
  cases live.stage with
  | going _ unended silent balanced => exact Or.inl ⟨unended, silent⟩
  | answered files ended answers idle _ _ _ => exact Or.inr ⟨files, ended, answers, idle⟩
  | stopped cancelled _ => simp [live.kept] at cancelled

/-- A walk that nobody stops is never cancelled, keeps its roots, and stands where the
reports that came in have brought it. -/
theorem stage_run (told : Operation → Result → Prop) (roots : List Path)
    (happenings : List Happening) (reports : ∀ happening ∈ happenings, happening.Reports told) :
    (run roots happenings).roots = roots ∧ (run roots happenings).cancelled = false ∧
      Stage told (run roots happenings) := by
  induction happenings using List.reverseRecOn with
  | nil => exact ⟨rfl, rfl, stage_start told roots⟩
  | append_singleton before happening inductionHypothesis =>
    obtain ⟨same, live, stage⟩ := inductionHypothesis fun earlier member =>
      reports earlier (List.mem_append_left _ member)
    rw [run_snoc, happen_roots, happen_cancelled]
    exact ⟨same, live, stage_happen told _ happening (reports happening (by simp)) stage⟩

/-- A walk that nobody stops is live. -/
theorem live_run (roots : List Path) (happenings : List Happening) : Live (run roots happenings) := by
  obtain ⟨-, kept, stage⟩ := stage_run (fun _ _ => True) roots happenings fun happening _ => by
    cases happening <;> simp [Happening.Reports]
  exact ⟨kept, stage⟩

end BuildWatch.Walk
