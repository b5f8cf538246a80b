import BuildWatch.Proofs.Files.Meaning
import BuildWatch.Proofs.Text.Border

/-!
# The bytes of a path below another one

A path below another one is shown by the bytes behind the components of that. They are cut at
the borders of components: they open with the first component that is left, and close with the
last one, so slashes and single dots around them are gone, and those within are kept. Whatever
they are, the bytes mean the components that are left, and read from the other path they are the
path again.

Slashes and dots are characters of their own, so a path is a text exactly when all its names are.
Two spellings of one path are both texts, or neither is.
-/

namespace BuildWatch.Path

open Files (Step stepsOf moves pieceSteps)
open Text (IsText)

/-- The components of bytes that start somewhere in a path. -/
def spansFrom (start : Nat) (bytes : Bytes) : List Span :=
  (piecesFrom start [] bytes).filterMap pieceSpan?

/-- Bytes are one piece, or a piece with a slash and further bytes behind it. -/
@[elab_as_elim]
theorem piece_induction {motive : Bytes → Prop} (last : ∀ piece, slash ∉ piece → motive piece)
    (more : ∀ piece rest, slash ∉ piece → motive rest → motive (piece ++ slash :: rest))
    (bytes : Bytes) : motive bytes := by
  induction length : bytes.length using Nat.strongRecOn generalizing bytes with
  | ind size inductionHypothesis =>
    by_cases within : slash ∈ bytes
    · obtain ⟨piece, rest, rfl, plain⟩ := List.eq_append_cons_of_mem within
      exact more piece rest plain (inductionHypothesis rest.length (by simp at length; omega) rest rfl)
    · exact last bytes within

/-- A component stands where its piece does. -/
theorem pieceSpan?_places (start : Nat) (piece : Bytes) (span : Span)
    (means : pieceSpan? (start, piece) = some span) :
    span.start = start ∧ span.stop = start + piece.length ∧ piece ≠ [] ∧
      (start ≠ 0 → piece ≠ [dot]) := by
  rw [pieceSpan?] at means
  split_ifs at means
  all_goals
    obtain rfl := Option.some.inj means
    simp_all

theorem spansFrom_last (start : Nat) (piece : Bytes) (plain : slash ∉ piece) :
    spansFrom start piece = (pieceSpan? (start, piece)).toList := by
  rw [spansFrom, piecesFrom_plain start [] piece plain]
  cases means : pieceSpan? (start, piece) <;> simp [means]

theorem spansFrom_more (start : Nat) (piece rest : Bytes) (plain : slash ∉ piece) :
    spansFrom start (piece ++ slash :: rest) =
      (pieceSpan? (start, piece)).toList ++ spansFrom (start + piece.length + 1) rest := by
  rw [← spansFrom_last start piece plain, spansFrom, piecesFrom_append, List.filterMap_append]
  rfl

theorem isRooted_piece (piece more : Bytes) (plain : slash ∉ piece) (nonempty : piece ≠ []) :
    isRooted (piece ++ more) = false := by
  cases piece with
  | nil => exact absurd rfl nonempty
  | cons c letters =>
    have other : c ≠ slash := fun same => plain (same ▸ List.mem_cons_self)
    simp [isRooted, other]

/-- Bytes can be cut in front of any of their components: what is behind the cut has that component
and those behind it, and does not begin with a slash. What is cut from a text is a text. -/
theorem spansFrom_drop (bytes : Bytes) (start taken : Nat) (span : Span)
    (next : (spansFrom start bytes)[taken]? = some span) :
    ∃ front rest, bytes = front ++ rest ∧ span.start = start + front.length ∧ isRooted rest = false ∧
      spansFrom span.start rest = (spansFrom start bytes).drop taken ∧
      (IsText bytes → IsText rest) := by
  induction bytes using piece_induction generalizing start taken with
  | last piece plain =>
    rw [spansFrom_last start piece plain] at next ⊢
    obtain ⟨rfl, means⟩ : taken = 0 ∧ pieceSpan? (start, piece) = some span := by
      cases means : pieceSpan? (start, piece) <;> cases taken <;> simp_all
    obtain ⟨place, -, nonempty, -⟩ := pieceSpan?_places start piece span means
    refine ⟨[], piece, rfl, by simpa using place, ?_, ?_, id⟩
    · simpa using isRooted_piece piece [] plain nonempty
    · rw [place, spansFrom_last start piece plain, means]
      rfl
  | more piece rest plain inductionHypothesis =>
    rw [spansFrom_more start piece rest plain] at next ⊢
    by_cases own : (pieceSpan? (start, piece)).toList.length ≤ taken
    · -- The component is one of those behind the piece.
      rw [List.getElem?_append_right own] at next
      obtain ⟨front, behind, rfl, place, open_, same, text⟩ := inductionHypothesis _ _ next
      refine ⟨piece ++ slash :: front, behind, by simp, ?_, open_, ?_,
        fun whole => text (whole.cut _ _ _ (by decide)).2⟩
      · rw [place, List.length_append, List.length_cons]
        omega
      · rw [same, List.drop_append, List.drop_of_length_le own, List.nil_append]
    · obtain ⟨rfl, means⟩ : taken = 0 ∧ pieceSpan? (start, piece) = some span := by
        cases means : pieceSpan? (start, piece) <;> simp_all
      obtain ⟨place, -, nonempty, -⟩ := pieceSpan?_places start piece span means
      refine ⟨[], piece ++ slash :: rest, rfl, by simpa using place,
        isRooted_piece piece _ plain nonempty, ?_, id⟩
      rw [place, spansFrom_more start piece rest plain, means]
      rfl

/-- A piece that means a component further in is one step, and does not stay. -/
theorem stepsOf_piece (start : Nat) (later : start ≠ 0) (piece : Bytes) (plain : slash ∉ piece)
    (span : Span) (means : pieceSpan? (start, piece) = some span) :
    ∃ step, stepsOf piece = [step] ∧ step ≠ .stay := by
  obtain ⟨-, -, nonempty, noDot⟩ := pieceSpan?_places start piece span means
  have open_ : piece.getLast? ≠ some slash := fun ends => plain (List.mem_of_getLast? ends)
  have moves : ∃ step, Files.stepOf? piece = some step ∧ step ≠ .stay := by
    rw [Files.stepOf?, if_neg nonempty, if_neg (noDot later)]
    split
    · exact ⟨_, rfl, by simp⟩
    · exact ⟨_, rfl, by simp⟩
  obtain ⟨step, takes, goes⟩ := moves
  refine ⟨step, ?_, goes⟩
  rw [Files.stepsOf_eq, if_neg open_, pieceSteps, piecesFrom_plain 0 [] piece plain]
  simp [takes]

/-- Bytes with a step are not empty. -/
theorem written_of_step (bytes : Bytes) (step : Step) (ends : (stepsOf bytes).getLast? = some step) :
    bytes ≠ [] := by
  rintro rfl
  simp [Files.stepsOf_eq, pieceSteps, piecesFrom, Files.stepOf?] at ends

/-- The steps of bytes are those of its first piece and of what is behind that. -/
theorem stepsOf_append (before after : Bytes) (more : after ≠ []) :
    stepsOf (before ++ slash :: after) = pieceSteps before ++ stepsOf after := by
  rw [Files.stepsOf_eq, Files.stepsOf_eq, Files.pieceSteps_append, List.append_assoc,
    List.getLast?_append, List.getLast?_cons, Option.some_or,
    List.getLast?_eq_some_getLast more, Option.getD_some]

/-- Bytes can be cut behind any of their components: the cut keeps that one and those before it, and
further in it does not end in a step that stays. What is cut from a text is a text. -/
theorem spansFrom_take (bytes : Bytes) (start taken : Nat) (span : Span)
    (next : (spansFrom start bytes)[taken]? = some span) :
    ∃ body tail, bytes = body ++ tail ∧ span.stop = start + body.length ∧
      spansFrom start body = (spansFrom start bytes).take (taken + 1) ∧
      (start ≠ 0 → ∃ step, (stepsOf body).getLast? = some step ∧ step ≠ .stay) ∧
      (IsText bytes → IsText body) := by
  induction bytes using piece_induction generalizing start taken with
  | last piece plain =>
    rw [spansFrom_last start piece plain] at next ⊢
    obtain ⟨rfl, means⟩ : taken = 0 ∧ pieceSpan? (start, piece) = some span := by
      cases means : pieceSpan? (start, piece) <;> cases taken <;> simp_all
    refine ⟨piece, [], by simp, (pieceSpan?_places start piece span means).2.1, ?_, fun later => ?_,
      id⟩
    · rw [spansFrom_last start piece plain, means]
      rfl
    · obtain ⟨step, steps, goes⟩ := stepsOf_piece start later piece plain span means
      exact ⟨step, by rw [steps]; rfl, goes⟩
  | more piece rest plain inductionHypothesis =>
    rw [spansFrom_more start piece rest plain] at next ⊢
    by_cases own : (pieceSpan? (start, piece)).toList.length ≤ taken
    · -- The component is one of those behind the piece.
      rw [List.getElem?_append_right own] at next
      obtain ⟨body, tail, rfl, place, same, steps, text⟩ := inductionHypothesis _ _ next
      have more : body ≠ [] := by
        rintro rfl
        have none : spansFrom (start + piece.length + 1) [] = [] := rfl
        rw [none, eq_comm, List.take_eq_nil_iff] at same
        rcases same with zero | empty
        · exact absurd zero (Nat.succ_ne_zero _)
        · rw [List.nil_append] at empty next
          simp [empty] at next
      refine ⟨piece ++ slash :: body, tail, by simp, ?_, ?_, fun later => ?_, fun whole => ?_⟩
      · rw [place, List.length_append, List.length_cons]
        omega
      · rw [spansFrom_more start piece body plain, same, List.take_append,
          List.take_of_length_le (Nat.le_succ_of_le own), Nat.sub_add_comm own]
      · obtain ⟨step, ends, goes⟩ := steps (Nat.succ_ne_zero _)
        exact ⟨step, by rw [stepsOf_append piece body more, List.getLast?_append, ends, Option.some_or],
          goes⟩
      · obtain ⟨front, behind⟩ := whole.cut _ _ _ (by decide)
        exact .join _ _ front (text behind)
    · obtain ⟨rfl, means⟩ : taken = 0 ∧ pieceSpan? (start, piece) = some span := by
        cases means : pieceSpan? (start, piece) <;> simp_all
      refine ⟨piece, slash :: rest, rfl, (pieceSpan?_places start piece span means).2.1, ?_,
        fun later => ?_, fun whole => (whole.cut _ _ _ (by decide)).1⟩
      · rw [spansFrom_last start piece plain, means]
        rfl
      · obtain ⟨step, steps, goes⟩ := stepsOf_piece start later piece plain span means
        exact ⟨step, by rw [steps]; rfl, goes⟩

/-- The components of bytes further in are its steps without those that stay. -/
theorem spansFrom_components (start : Nat) (later : start ≠ 0) (bytes : Bytes) :
    (spansFrom start bytes).map Span.component = (moves (pieceSteps bytes)).map Step.component := by
  rw [pieceSteps, piecesFrom_shifted 0 start, spansFrom]
  refine spans_moves _ fun piece member => Or.inl ?_
  obtain ⟨more, others, pieces, above⟩ := piecesFrom_cons start [] bytes
  rw [pieces, List.mem_cons] at member
  rcases member with rfl | member
  · exact later
  · exact Nat.ne_zero_of_lt (above piece member)

/-- An absolute path means the root and the components behind its first slash. -/
theorem spans_absolute (path : Path) (absolute : path.isAbsolute = true) :
    ∃ bytes, path.bytes = slash :: bytes ∧ path.spans = ⟨.root, 0, 1⟩ :: spansFrom 1 bytes := by
  cases bytes : path.bytes with
  | nil => simp [isAbsolute, bytes, isRooted] at absolute
  | cons c rest =>
    obtain rfl : c = slash := by
      by_contra other
      simp [isAbsolute, bytes, isRooted, other] at absolute
    refine ⟨rest, rfl, ?_⟩
    rw [spans, spansOf, bytes, piecesFrom]
    rfl

/-- A component that is written as a text. -/
def HasText : Component → Prop
  | .name bytes => IsText bytes
  | _ => True

/-- A piece is a text exactly when its component is written as one. -/
theorem pieceSpan?_hasText (start : Nat) (piece : Bytes) :
    IsText piece ↔ ∀ span ∈ (pieceSpan? (start, piece)).toList, HasText span.component := by
  rw [pieceSpan?]
  split_ifs with empty single first double
  · exact iff_of_true ⟨"", empty⟩ (by simp)
  · exact iff_of_true ⟨".", single⟩ (by simp [HasText])
  · exact iff_of_true ⟨".", single⟩ (by simp)
  · exact iff_of_true ⟨"..", double⟩ (by simp [HasText])
  · simp [HasText]

/-- Bytes are a text exactly when all their components are written as texts. -/
theorem spansFrom_hasText (start : Nat) (bytes : Bytes) :
    IsText bytes ↔ ∀ span ∈ spansFrom start bytes, HasText span.component := by
  induction bytes using piece_induction generalizing start with
  | last piece plain => rw [spansFrom_last start piece plain, ← pieceSpan?_hasText]
  | more piece rest plain inductionHypothesis =>
    rw [spansFrom_more start piece rest plain, List.forall_mem_append, ← pieceSpan?_hasText,
      ← inductionHypothesis]
    exact ⟨fun whole => whole.cut _ _ _ (by decide), fun parts => .join _ _ parts.1 parts.2⟩

/-- A path is a text exactly when all its components are written as texts. -/
theorem isText_iff (path : Path) :
    IsText path.bytes ↔ ∀ component ∈ path.components, HasText component := by
  rw [components, List.forall_mem_map, spans, spansOf, spansFrom_hasText 0]
  split
  · simp [spansFrom, HasText]
  · rfl

/-- Of two spellings of one path both are texts, or neither is. -/
theorem isText_same (one other : Path) (same : one.same other = true) :
    IsText one.bytes ↔ IsText other.bytes := by
  rw [isText_iff, isText_iff, beq_iff_eq.mp same]

/-- A path that is a text is the path of what it is shown as. -/
theorem mk_text (path : Path) (text : IsText path.bytes) : (⟨path.text⟩ : Path) = path := by
  obtain ⟨text, written⟩ := text
  obtain rfl : path = ⟨text⟩ := congrArg Path.mk written
  rw [Path.text, Text.shown_bytes]

theorem isAbsolute_iff (path : Path) :
    path.isAbsolute = true ↔ path.components.head? = some .root := by
  obtain ⟨opening, means, opens⟩ := path.components_eq
  rw [means]
  cases absolute : path.isAbsolute with
  | true => simp_all
  | false =>
    rw [absolute, if_neg Bool.false_ne_true] at opens
    rcases opens with rfl | rfl
    · cases steps : moves (stepsOf path.bytes) with
      | nil => simp
      | cons step others => cases step <;> simp [Step.component]
    · simp

/-- The slice between two positions is what stands between them. -/
theorem slice_eq (path : Path) (before body after : Bytes)
    (bytes : path.bytes = before ++ body ++ after) :
    path.slice before.length (before.length + body.length) = ⟨body⟩ := by
  rw [slice, bytes, ← List.length_append, List.take_left, List.drop_left]

/-- A path is below another one: its components are those of that and more. -/
def Below (base path : Path) : Prop :=
  base.components <+: path.components ∧ base.components ≠ path.components

instance (base path : Path) : Decidable (Below base path) := inferInstanceAs (Decidable (_ ∧ _))

/-- What is left of a path behind an absolute one, and that something is left. -/
theorem Below.behind {base path : Path} (below : Below base path) (absolute : base.isAbsolute = true) :
    ∃ inner bytes span others, base.components = .root :: inner ∧ path.bytes = slash :: bytes ∧
      path.spans = ⟨.root, 0, 1⟩ :: spansFrom 1 bytes ∧
      (spansFrom 1 bytes).drop inner.length = span :: others ∧
      path.components = base.components ++ (span :: others).map Span.component := by
  obtain ⟨⟨extra, whole⟩, apart⟩ := below
  rw [isAbsolute_iff] at absolute
  obtain ⟨inner, base_⟩ : ∃ inner, base.components = .root :: inner :=
    List.head?_eq_some_iff.mp absolute
  have rooted : path.isAbsolute = true := by rw [isAbsolute_iff, ← whole, base_]; rfl
  obtain ⟨bytes, written, spans⟩ := spans_absolute path rooted
  have left : extra = ((spansFrom 1 bytes).drop inner.length).map Span.component := by
    rw [base_, components, spans, List.map_cons, List.cons_append, List.cons.injEq] at whole
    rw [List.map_drop, ← whole.2, List.drop_left]
  obtain ⟨span, others, next⟩ :
      ∃ span others, (spansFrom 1 bytes).drop inner.length = span :: others := by
    refine List.exists_cons_of_ne_nil fun none => apart ?_
    rw [← whole, left, none, List.map_nil, List.append_nil]
  exact ⟨inner, bytes, span, others, base_, written, spans, next, by rw [← next, ← left, whole]⟩

/-- What is behind a path with components is cut in front of the first one that is left, and behind
the last one. -/
theorem stripPrefix?_slice (base path : Path) (opens : base.components <+: path.components)
    (some_ : base.components ≠ []) (span final : Span)
    (next : (path.spans.drop base.components.length).head? = some span)
    (last : path.spans.getLast? = some final) :
    stripPrefix? base path = some (path.slice span.start final.stop) := by
  have prefixed : base.isPrefixOf path = true := List.isPrefixOf_iff_prefix.mpr opens
  simp only [stripPrefix?, prefixed, if_true, next, last, Option.map_some, Option.getD_some,
    List.length_eq_zero_iff, some_, if_false]

/-- What is behind an absolute path is relative. Its steps are those that are left, and it
does not end in one that stays. Behind it a text is a text. -/
theorem stripPrefix?_below (base path : Path) (absolute : base.isAbsolute = true)
    (below : Below base path) :
    ∃ rest, stripPrefix? base path = some rest ∧ rest.isAbsolute = false ∧
      path.components = base.components ++ (moves (stepsOf rest.bytes)).map Step.component ∧
      (∃ step, (stepsOf rest.bytes).getLast? = some step ∧ step ≠ .stay) ∧
      (IsText path.bytes → IsText rest.bytes) := by
  obtain ⟨inner, bytes, span, others, base_, written, spans, next, means⟩ := below.behind absolute
  obtain ⟨front, behind, rfl, opens, unrooted, same, text⟩ :=
    spansFrom_drop bytes 1 inner.length span (by rw [← List.head?_drop, next]; rfl)
  have later : span.start ≠ 0 := by omega
  obtain ⟨final, last⟩ : ∃ final, (spansFrom span.start behind).getLast? = some final := by
    rw [same, next]
    exact ⟨_, List.getLast?_eq_some_getLast (List.cons_ne_nil _ _)⟩
  have place :
      (spansFrom span.start behind)[(spansFrom span.start behind).length - 1]? = some final := by
    rw [← List.getLast?_eq_getElem?, last]
  obtain ⟨body, tail, rfl, closes, kept, steps, text'⟩ := spansFrom_take behind _ _ final place
  rw [List.take_of_length_le (by omega)] at kept
  obtain ⟨step, ends, goes⟩ := steps later
  have taken : (path.spans.drop base.components.length).head? = some span := by
    rw [spans, base_, List.length_cons, List.drop_succ_cons, next, List.head?_cons]
  have stops : path.spans.getLast? = some final := by
    have parts := List.take_append_drop inner.length (spansFrom 1 (front ++ (body ++ tail)))
    rw [spans, List.getLast?_cons, ← parts, ← same, List.getLast?_append, last, Option.some_or,
      Option.getD_some]
  have between : path.slice span.start final.stop = ⟨body⟩ := by
    have start : span.start = (slash :: front).length := by
      rw [opens, List.length_cons]
      omega
    rw [closes, start]
    exact slice_eq path (slash :: front) body tail (by simp [written])
  have nonempty : body ≠ [] := fun empty => written_of_step _ step ends empty
  refine ⟨⟨body⟩, ?_, ?_, ?_, ⟨step, ends, goes⟩, fun whole => text' (text ?_)⟩
  · rw [← between]
    exact stripPrefix?_slice base path below.1 (by simp [base_]) span final taken stops
  · rw [isAbsolute, ← isRooted_append body tail nonempty, unrooted]
  · rw [moves_stepsOf, ← spansFrom_components span.start later, kept, same, next, means]
  · rw [written] at whole
    exact (Text.IsText.cut [] _ _ (by decide) whole).2

end BuildWatch.Path
