import BuildWatch.Proofs.Files.Entries
import Mathlib.Data.List.Basic

/-!
# Lookups go by what a path means

A lookup walks the pieces of a path, and of these its meaning drops the empty ones and nearly
all single dots. What is dropped can be left out of a lookup too: a step that stays asks
for a folder, and so does whatever step follows it. Only at the end of a path it matters, since
nothing else asks there for a folder.

So two spellings of one path are looked up alike when both end in such a step or neither does, and a
folder is found under all spellings of its path.
-/

namespace BuildWatch

/-- Whether a component stands for a step of a lookup that does not stay. -/
def Component.moves : Component → Bool
  | .root => false
  | .here => false
  | .up => true
  | .name _ => true

namespace Files

/-- What a step means in a path. -/
def Step.component : Step → Component
  | .stay => .here
  | .up => .up
  | .into name => .name name

theorem Step.component_injective : Function.Injective Step.component := by
  intro one other same
  cases one <;> cases other <;> simp_all [Step.component]

/-- The steps that do not stay. -/
def moves (steps : List Step) : List Step := steps.filter (· != .stay)

theorem moves_append (steps others : List Step) : moves (steps ++ others) = moves steps ++ moves others :=
  List.filter_append _ _

end Files

namespace Path

open Files (Step stepOf? stepsOf moves pieceSteps)

/-- A slash at the end is none of the moves. -/
theorem moves_stepsOf (bytes : Bytes) : moves (stepsOf bytes) = moves (pieceSteps bytes) := by
  rw [Files.stepsOf_eq, Files.moves_append]
  split <;> simp [moves]

/-- Nothing but a single dot that opens a path means more than the step it asks for. -/
theorem pieceSpan?_component (start : Nat) (piece : Bytes) (inner : start ≠ 0 ∨ piece ≠ [dot]) :
    (pieceSpan? (start, piece)).map Span.component =
      ((stepOf? piece).filter (· != .stay)).map Step.component := by
  by_cases empty : piece = []
  · rw [pieceSpan?, stepOf?, if_pos empty, if_pos empty]
    rfl
  · by_cases here : piece = [dot]
    · have later : start ≠ 0 := inner.resolve_right fun other => other here
      rw [pieceSpan?, stepOf?, if_neg empty, if_neg empty, if_pos here, if_pos here, if_neg later]
      rfl
    · rw [pieceSpan?, stepOf?, if_neg empty, if_neg empty, if_neg here, if_neg here]
      split <;> rfl

/-- Pieces mean the steps that they ask for. -/
theorem spans_moves (pieces : List (Nat × Bytes))
    (inner : ∀ piece ∈ pieces, piece.1 ≠ 0 ∨ piece.2 ≠ [dot]) :
    (pieces.filterMap pieceSpan?).map Span.component =
      (moves ((pieces.map Prod.snd).filterMap stepOf?)).map Step.component := by
  rw [moves, List.filterMap_map, List.filter_filterMap, List.map_filterMap, List.map_filterMap]
  exact List.filterMap_congr fun piece member =>
    pieceSpan?_component piece.1 piece.2 (inner piece member)

/-- The first piece starts where the bytes do, and the others start later. -/
theorem piecesFrom_cons (start : Nat) (piece bytes : Bytes) :
    ∃ more others, piecesFrom start piece bytes = (start, piece.reverse ++ more) :: others ∧
      ∀ other ∈ others, start < other.1 := by
  induction bytes generalizing start piece with
  | nil => exact ⟨[], [], by rw [piecesFrom, List.append_nil], by simp⟩
  | cons c rest inductionHypothesis =>
    by_cases border : c = slash
    · subst border
      obtain ⟨more, others, next, later⟩ := inductionHypothesis (start + piece.length + 1) []
      refine ⟨[], _, by rw [piecesFrom, if_pos rfl, List.append_nil], fun other member => ?_⟩
      rw [next, List.mem_cons] at member
      rcases member with rfl | member
      · exact Nat.lt_succ_of_le (Nat.le_add_right _ _)
      · have after := later other member
        omega
    · obtain ⟨more, others, next, later⟩ := inductionHypothesis start (c :: piece)
      exact ⟨c :: more, others, by simpa [piecesFrom, border] using next, later⟩

/-- Every byte but the slashes is in a piece. -/
theorem mem_piecesFrom (start : Nat) (piece bytes : Bytes) (mark : UInt8) (plain : mark ≠ slash) :
    (∃ part ∈ (piecesFrom start piece bytes).map Prod.snd, mark ∈ part) ↔
      mark ∈ piece ∨ mark ∈ bytes := by
  induction bytes generalizing start piece with
  | nil => simp [piecesFrom]
  | cons c rest inductionHypothesis =>
    by_cases border : c = slash
    · subst border
      rw [piecesFrom, if_pos rfl, List.map_cons, List.exists_mem_cons_iff, inductionHypothesis]
      simp [plain]
    · have next := inductionHypothesis start (c :: piece)
      rw [piecesFrom, if_neg border, next, List.mem_cons, List.mem_cons, or_right_comm, or_comm]

/-- A byte that is neither a slash nor a dot is in a name. -/
theorem mem_bytes (path : Path) (mark : UInt8) (plain : mark ≠ slash) (noDot : mark ≠ dot) :
    mark ∈ path.bytes ↔
      ∃ name, .into name ∈ moves (stepsOf path.bytes) ∧ mark ∈ name := by
  have named (piece : Bytes) (name : Bytes) (step : stepOf? piece = some (.into name)) :
      name = piece := by
    unfold stepOf? at step
    split_ifs at step
    · simp at step
    · simp at step
    · exact (Step.into.inj (Option.some.inj step)).symm
  have pieces := mem_piecesFrom 0 [] path.bytes mark plain
  simp only [List.not_mem_nil, false_or] at pieces
  rw [moves_stepsOf, ← pieces]
  simp only [pieceSteps, moves, List.mem_filter, List.mem_filterMap]
  constructor
  · rintro ⟨piece, member, within⟩
    refine ⟨piece, ⟨⟨piece, member, ?_⟩, rfl⟩, within⟩
    rw [stepOf?, if_neg (List.ne_nil_of_mem within), if_neg, if_neg]
    · rintro rfl
      simp [noDot] at within
    · rintro rfl
      simp [noDot] at within
  · rintro ⟨name, ⟨⟨piece, member, step⟩, -⟩, within⟩
    exact ⟨piece, member, named piece name step ▸ within⟩

/-- Only a path without bytes means nothing. -/
theorem components_eq_nil_iff (path : Path) : path.components = [] ↔ path.bytes.isEmpty = true := by
  rw [components, spans, spansOf]
  cases bytes : path.bytes with
  | nil => simp_all [isRooted, piecesFrom, pieceSpan?]
  | cons c rest =>
    rw [List.isEmpty_cons]
    by_cases border : c = slash
    · simp [isRooted, border]
    · obtain ⟨more, others, pieces, -⟩ := piecesFrom_cons 0 [c] rest
      have known : pieceSpan? (0, c :: more) ≠ none := by
        rw [pieceSpan?, if_neg (List.cons_ne_nil _ _)]
        split_ifs <;> simp_all
      obtain ⟨span, found⟩ := Option.ne_none_iff_exists'.mp known
      simp [isRooted, border, piecesFrom, pieces, List.filterMap_cons_some found]

/-- A path means how it opens, and the steps that a lookup of it takes without those that stay.
It opens with the root when it is absolute, and else with nothing or a single dot. -/
theorem components_eq (path : Path) :
    ∃ opening, path.components = opening ++ (moves (stepsOf path.bytes)).map Step.component ∧
      if path.isAbsolute then opening = [.root] else opening = [] ∨ opening = [.here] := by
  obtain ⟨first, others, pieces, later⟩ := piecesFrom_cons 0 [] path.bytes
  rw [List.reverse_nil, List.nil_append] at pieces
  have meant := spans_moves others fun other member =>
    Or.inl (Nat.pos_iff_ne_zero.mp (later other member))
  have bare (inner : first ≠ [dot]) := spans_moves ((0, first) :: others) fun other member => by
    rcases List.mem_cons.mp member with rfl | member
    · exact Or.inr inner
    · exact Or.inl (Nat.pos_iff_ne_zero.mp (later other member))
  rw [moves_stepsOf, components, spans, spansOf, pieceSteps, pieces, isAbsolute]
  cases absolute : isRooted path.bytes with
  | true =>
    have opens : first ≠ [dot] := by
      obtain ⟨rest, bytes⟩ : ∃ rest, path.bytes = slash :: rest := by
        cases bytes : path.bytes with
        | nil => simp [isRooted, bytes] at absolute
        | cons c rest => by_cases border : c = slash <;> simp_all [isRooted]
      rw [bytes, piecesFrom] at pieces
      rintro rfl
      simp at pieces
    exact ⟨[.root], by rw [← bare opens]; rfl, rfl⟩
  | false =>
    by_cases dot : first = [dot]
    · subst dot
      exact ⟨[.here], congrArg (Component.here :: ·) meant, Or.inr rfl⟩
    · exact ⟨[], by rw [← bare dot]; rfl, Or.inl rfl⟩

/-- How a path opens can be told from the moves that follow. -/
theorem opening_unique (opening other : List Component) (steps others : List Step)
    (one : opening = [.root] ∨ opening = [] ∨ opening = [.here])
    (two : other = [.root] ∨ other = [] ∨ other = [.here])
    (same : opening ++ (moves steps).map Step.component = other ++ (moves others).map Step.component) :
    opening = other ∧ moves steps = moves others := by
  have kept (steps : List Step) :
      ((moves steps).map Step.component).filter Component.moves = (moves steps).map Step.component := by
    rw [List.filter_eq_self]
    intro component member
    obtain ⟨step, kept, rfl⟩ := List.mem_map.mp member
    cases step <;> simp_all [moves, Component.moves, Step.component]
  have dropped (opening : List Component)
      (opens : opening = [.root] ∨ opening = [] ∨ opening = [.here]) :
      opening.filter Component.moves = [] := by
    rcases opens with rfl | rfl | rfl <;> rfl
  have rest := congrArg (List.filter Component.moves) same
  rw [List.filter_append, List.filter_append, dropped _ one, dropped _ two, kept, kept] at rest
  exact ⟨List.append_cancel_right ((same.trans (congrArg (other ++ ·) rest.symm))),
    Step.component_injective.list_map rest⟩

/-- Two spellings of one path are both absolute or both not, and are looked up by the same moves. -/
theorem same_moves (one other : Path) (same : one.same other = true) :
    one.isAbsolute = other.isAbsolute ∧ moves (stepsOf one.bytes) = moves (stepsOf other.bytes) := by
  obtain ⟨opening, means, opens⟩ := one.components_eq
  obtain ⟨opening', means', opens'⟩ := other.components_eq
  rw [Path.same, beq_iff_eq, means, means'] at same
  have kinds (path : Path) (opening : List Component)
      (opens : if path.isAbsolute then opening = [.root] else opening = [] ∨ opening = [.here]) :
      (opening = [.root] ∨ opening = [] ∨ opening = [.here]) ∧
        (path.isAbsolute = true ↔ opening = [.root]) := by
    split at opens
    · simp_all
    · rcases opens with rfl | rfl <;> simp_all
  obtain ⟨kind, root⟩ := kinds one opening opens
  obtain ⟨kind', root'⟩ := kinds other opening' opens'
  obtain ⟨rfl, moves⟩ := opening_unique _ _ _ _ kind kind' same
  exact ⟨Bool.eq_iff_iff.mpr (root.trans root'.symm), moves⟩

/-- All that a lookup reads of a path besides the steps that stay is decided by what it means. -/
theorem same_bytes (one other : Path) (same : one.same other = true) :
    one.bytes.isEmpty = other.bytes.isEmpty ∧
      one.bytes.contains 0 = other.bytes.contains 0 := by
  have moves := (same_moves one other same).2
  constructor
  · rw [Bool.eq_iff_iff, ← components_eq_nil_iff, ← components_eq_nil_iff, beq_iff_eq.mp same]
  · rw [Bool.eq_iff_iff, List.contains_iff_mem, List.contains_iff_mem,
      mem_bytes one _ (by decide) (by decide), mem_bytes other _ (by decide) (by decide), moves]

/-- A path read from another one means the steps of both. -/
theorem components_join (base path : Path) (relative : path.isAbsolute = false)
    (written : base.bytes.isEmpty = false) :
    (base.join path).components =
      base.components ++ (moves (stepsOf path.bytes)).map Step.component := by
  have later := spans_moves (piecesFrom ((Files.stem base).length + 1) [] path.bytes) <| by
    obtain ⟨more, others, pieces, above⟩ :=
      piecesFrom_cons ((Files.stem base).length + 1) [] path.bytes
    intro piece member
    rw [pieces, List.mem_cons] at member
    rcases member with rfl | member
    · exact Or.inl (Nat.succ_ne_zero _)
    · exact Or.inl (Nat.ne_zero_of_lt (above piece member))
  have front : (piecesFrom 0 [] (Files.stem base)).filterMap pieceSpan? =
      (piecesFrom 0 [] base.bytes).filterMap pieceSpan? := by
    rcases Files.stem_bytes base with ends | ⟨whole, -⟩
    · rw [ends, piecesFrom_append, List.filterMap_append]
      simp [piecesFrom, pieceSpan?]
    · rw [whole]
  have rooted : isRooted (base.join path).bytes = isRooted base.bytes :=
    Files.join_absolute base path relative written
  have steps : moves (stepsOf path.bytes) = moves (((piecesFrom ((Files.stem base).length + 1) []
      path.bytes).map Prod.snd).filterMap stepOf?) := by
    rw [moves_stepsOf, pieceSteps, piecesFrom_shifted]
  rw [components, spans, spansOf, rooted, Files.join_bytes base path relative written,
    piecesFrom_append, List.filterMap_append, front, components, spans, spansOf, steps, ← later]
  split <;> simp

end Path

namespace Files

/-- A step that stays asks for a folder, and so does every step that follows it. -/
theorem walkSteps_stay (top : Folder) (last : Bool) (links : Nat) (place : Place)
    (before rest : List Step) (more : rest ≠ []) :
    walkSteps top last links place (before ++ .stay :: rest) =
      walkSteps top last links place (before ++ rest) := by
  rcases walkSteps_append top links place before with ⟨fault, fails⟩ | ⟨left, spot, goes⟩
  · rw [fails last _ (Or.inl (by simp)), fails last _ (Or.inl more)]
  · rw [goes last _ (Or.inl (by simp)), goes last _ (Or.inl more)]
    obtain ⟨next, further, rfl⟩ := List.exists_cons_of_ne_nil more
    cases stands : top.node? spot with
    | none => simp [walkSteps, stands]
    | some node => cases node <;> simp [walkSteps, stands]

/-- The steps that stay can be left out of a lookup, all but the last one. -/
theorem walkSteps_moves (top : Folder) (last : Bool) (links : Nat) (place : Place)
    (steps : List Step) (final : Step) :
    walkSteps top last links place (steps ++ [final]) =
      walkSteps top last links place (moves steps ++ [final]) := by
  suffices behind : ∀ before, walkSteps top last links place (before ++ (steps ++ [final])) =
      walkSteps top last links place (before ++ (moves steps ++ [final])) from behind []
  induction steps with
  | nil => exact fun before => rfl
  | cons step rest inductionHypothesis =>
    intro before
    cases step with
    | stay =>
      rw [List.cons_append, walkSteps_stay top last links place before _ (by simp)]
      exact inductionHypothesis before
    | up =>
      have next := inductionHypothesis (before ++ [.up])
      rwa [List.append_assoc, List.append_assoc] at next
    | into name =>
      have next := inductionHypothesis (before ++ [.into name])
      rwa [List.append_assoc, List.append_assoc] at next

/-- Two lookups by the same moves lead to the same place, if both end in a step that stays or
neither does. -/
theorem walkSteps_same (top : Folder) (last : Bool) (links : Nat) (place : Place)
    (steps others : List Step) (same : moves steps = moves others)
    (ends : steps.getLast? = some .stay ↔ others.getLast? = some .stay) :
    walkSteps top last links place steps = walkSteps top last links place others := by
  have final (steps : List Step) (stays : steps.getLast? = some .stay) :
      ∃ before, steps = before ++ [.stay] ∧ moves steps = moves before := by
    obtain ⟨before, rfl⟩ := List.getLast?_eq_some_iff.mp stays
    exact ⟨before, rfl, by rw [moves_append]; exact List.append_nil _⟩
  have whole (steps : List Step) (goes : steps.getLast? ≠ some .stay) :
      walkSteps top last links place steps = walkSteps top last links place (moves steps) := by
    rcases List.eq_nil_or_concat' steps with rfl | ⟨before, step, rfl⟩
    · rfl
    · have kept : moves [step] = [step] := by
        rw [List.getLast?_concat, ne_eq, Option.some_inj] at goes
        simp [moves, goes]
      rw [walkSteps_moves, moves_append, kept]
  by_cases stays : steps.getLast? = some .stay
  · obtain ⟨before, rfl, one⟩ := final steps stays
    obtain ⟨before', rfl, other⟩ := final others (ends.mp stays)
    rw [walkSteps_moves, walkSteps_moves top last links place before', ← one, ← other, same]
  · rw [whole steps stays, whole others (fun other => stays (ends.mpr other)), same]

/-- A folder is found whether or not the last step asks for one. -/
theorem walkSteps_folder (top : Folder) (links : Nat) (start place : Place) (steps : List Step)
    (leads : walkSteps top true links start (steps ++ [.stay]) = .ok place) :
    ∃ entries, top.node? place = some (.folder entries) := by
  rcases walkSteps_append top links start steps with ⟨fault, fails⟩ | ⟨left, spot, goes⟩
  · rw [fails true _ (Or.inr rfl)] at leads
    simp at leads
  · rw [goes true _ (Or.inr rfl), walkSteps] at leads
    split at leads
    · simp at leads
    · rename_i entries stands
      rw [walkSteps, Except.ok.injEq] at leads
      exact ⟨entries, leads ▸ stands⟩
    · simp at leads

/-- Steps that lead to a folder lead there also when one that stays is added. -/
theorem walkSteps_stays (top : Folder) (links : Nat) (start place : Place) (steps : List Step)
    (entries : Folder) (stands : top.node? place = some (.folder entries)) :
    walkSteps top true links start (steps ++ [.stay]) = .ok place ↔
      walkSteps top true links start steps = .ok place := by
  rcases walkSteps_append top links start steps with ⟨fault, fails⟩ | ⟨left, spot, goes⟩
  · have bare := fails true [] (Or.inr rfl)
    rw [List.append_nil] at bare
    rw [fails true _ (Or.inr rfl), bare]
  · have bare := goes true [] (Or.inr rfl)
    rw [List.append_nil] at bare
    rw [goes true _ (Or.inr rfl), bare, walkSteps, walkSteps]
    constructor
    · intro leads
      split at leads
      · simp at leads
      · rwa [walkSteps] at leads
      · simp at leads
    · intro leads
      obtain rfl := Except.ok.inj leads
      rw [stands]
      exact walkSteps.eq_1 _ _ _ _

variable (disk : Disk)

/-- Two spellings of one path lead to the same place, if both end in a step that stays or neither
does. -/
theorem placeOf_same (last : Bool) (one other : Path) (same : one.same other = true)
    (ends : (stepsOf one.bytes).getLast? = some .stay ↔ (stepsOf other.bytes).getLast? = some .stay) :
    disk.placeOf last one = disk.placeOf last other := by
  obtain ⟨absolute, moves⟩ := Path.same_moves one other same
  obtain ⟨written, clean⟩ := Path.same_bytes one other same
  rw [Disk.placeOf, Disk.placeOf, written, clean, absolute,
    walkSteps_same disk.top last linkLimit _ _ _ moves ends]

/-- A folder is found under every spelling of its path. -/
theorem placeOf_folder_same (one other : Path) (same : one.same other = true) (place : Place)
    (entries : Folder) (leads : disk.placeOf true one = .ok place)
    (stands : disk.top.node? place = some (.folder entries)) :
    disk.placeOf true other = .ok place := by
  obtain ⟨absolute, moves⟩ := Path.same_moves one other same
  obtain ⟨written, clean⟩ := Path.same_bytes one other same
  obtain ⟨there, free, walked⟩ := placeOf_ok disk true one place leads
  rw [← walkSteps_stays _ _ _ _ _ entries stands, walkSteps_moves, moves, ← walkSteps_moves,
    walkSteps_stays _ _ _ _ _ entries stands, absolute] at walked
  rw [written] at there
  rw [← List.contains_iff_mem, clean] at free
  rw [Disk.placeOf, there, if_neg Bool.false_ne_true, if_neg free, walked]

theorem nodeOf_folder_same (one other : Path) (same : one.same other = true) (entries : Folder)
    (leads : disk.nodeOf true one = .ok (.folder entries)) :
    disk.nodeOf true other = .ok (.folder entries) := by
  obtain ⟨place, found, stands⟩ := nodeOf_ok disk true one _ leads
  exact nodeOf_eq disk true other place _
    (placeOf_folder_same disk one other same place entries found stands) stands

/-- The top folder is found under every spelling of its path. -/
theorem nodeOf_top (path : Path) (root : path.components = [.root]) :
    disk.nodeOf true path = .ok (.folder disk.top) := by
  have top : disk.nodeOf true ⟨"/"⟩ = .ok (.folder disk.top) := by
    refine nodeOf_eq disk true _ [] _ ?_ rfl
    rw [Disk.placeOf, show stepsOf "/" = [.stay] by decide]
    simp +decide [walkSteps, Folder.node?]
  refine nodeOf_folder_same disk ⟨"/"⟩ path ?_ disk.top top
  rw [Path.same, root]
  decide

/-- A name below a path does not end in a step that stays. -/
theorem child_ends (path : Path) (name : Bytes) (valid : IsEntryName name)
    (written : path.bytes.isEmpty = false) :
    (stepsOf (path.child name).bytes).getLast? = some (.into name) := by
  obtain ⟨steps, child, -⟩ := stepsOf_child path name valid written
  rw [child, List.getLast?_concat]

end Files
end BuildWatch
