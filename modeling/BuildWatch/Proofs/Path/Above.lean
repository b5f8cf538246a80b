import BuildWatch.Proofs.Path.Relative
import BuildWatch.Settings.Search

/-!
# The paths above a path

The path above another one is its bytes up to the end of the last component but one, so it means
all components but the last. Slashes and single dots behind that are cut off with it, and those
within the bytes are kept. The root is never cut off: with an absolute path the steps up lead
through all that its components open, each of them once, down to the root alone.

The list of a path and those above it counts the steps that it takes by the components of the
path. They are always enough.
-/

namespace BuildWatch.Path

open Files (Step moves stepsOf)

/-- A path that is not absolute means the components of its bytes. -/
theorem spans_relative (path : Path) (relative : path.isAbsolute = false) :
    path.spans = spansFrom 0 path.bytes := by
  rw [isAbsolute] at relative
  rw [spans, spansOf, relative]
  rfl

/-- A path can be cut behind any of its components: the cut means that one and those before it. -/
theorem spans_slice (path : Path) (taken : Nat) (span : Span)
    (next : path.spans[taken]? = some span) :
    (path.slice 0 span.stop).spans = path.spans.take (taken + 1) := by
  cases absolute : path.isAbsolute with
  | true =>
    obtain ⟨bytes, written, spans⟩ := spans_absolute path absolute
    cases taken with
    | zero =>
      obtain rfl : ⟨.root, 0, 1⟩ = span := by simpa [spans] using next
      have cut := slice_eq path [] [slash] bytes written
      rw [spans]
      exact congrArg Path.spans cut
    | succ inner =>
      rw [spans, List.getElem?_cons_succ] at next
      obtain ⟨body, tail, rfl, place, same, -⟩ := spansFrom_take bytes 1 inner span next
      have cut : path.slice 0 span.stop = ⟨(slash :: body)⟩ := by
        rw [place, Nat.add_comm 1, ← List.length_cons (a := slash),
          ← Nat.zero_add (slash :: body).length]
        exact slice_eq path [] (slash :: body) tail written
      obtain ⟨behind, opens, means⟩ :=
        spans_absolute ⟨(slash :: body)⟩ (by simp [isAbsolute, isRooted])
      obtain rfl : body = behind := by simpa using opens
      rw [cut, means, spans, same, List.take_succ_cons]
  | false =>
    rw [spans_relative path absolute] at next ⊢
    obtain ⟨body, tail, bytes, place, same, -⟩ := spansFrom_take _ 0 taken span next
    have cut : path.slice 0 span.stop = ⟨body⟩ := by
      rw [place]
      exact slice_eq path [] body tail bytes
    have relative : Path.isAbsolute ⟨body⟩ = false := by
      rw [isAbsolute, bytes] at absolute
      rw [isAbsolute]
      rcases eq_or_ne body [] with rfl | nonempty
      · rfl
      · rw [← isRooted_append body tail nonempty, absolute]
    rw [cut, spans_relative _ relative, same]

/-- The path above another one means all of its components but the last, which is not the root. -/
theorem parent?_components (path above : Path) (up : path.parent? = some above) :
    ∃ last, last ≠ .root ∧ path.components = above.components ++ [last] := by
  rw [parent?] at up
  rcases List.eq_nil_or_concat' path.spans with none | ⟨earlier, last, spans⟩
  · simp [none] at up
  · rw [spans, List.reverse_append, List.reverse_singleton, List.singleton_append] at up
    have other : last.component ≠ .root := by
      intro root
      simp [root] at up
    simp only [other, if_false, Option.some.injEq] at up
    have kept : above.spans = earlier := by
      rcases List.eq_nil_or_concat' earlier with rfl | ⟨front, final, rfl⟩
      · rw [← up]
        rfl
      · have place : path.spans[front.length]? = some final := by simp [spans]
        have cut := spans_slice path front.length final place
        rw [spans, List.take_left' (by simp)] at cut
        rw [← up, List.reverse_append, List.reverse_singleton, List.singleton_append, List.head?_cons]
        exact cut
    exact ⟨last.component, other, by rw [components, components, spans, kept, List.map_append]; rfl⟩

/-- Only the top folder and the empty path have nothing above them. -/
theorem components_of_orphan (path : Path) (orphan : path.parent? = none) :
    path.components = [] ∨ path.components = [.root] := by
  rw [parent?] at orphan
  rcases List.eq_nil_or_concat' path.spans with none | ⟨earlier, last, spans⟩
  · exact Or.inl (by rw [components, none, List.map_nil])
  · right
    rw [spans, List.reverse_append, List.reverse_singleton, List.singleton_append] at orphan
    have root : last.component = .root := by
      by_contra other
      simp [other] at orphan
    have ends : path.components.getLast? = some .root := by
      rw [components, spans, List.map_append, List.map_singleton, List.getLast?_concat, root]
    -- All steps that follow the root are others, so when it is the last there are none.
    obtain ⟨opening, means, opens⟩ := path.components_eq
    rcases List.eq_nil_or_concat' (moves (stepsOf path.bytes)) with none | ⟨before, step, steps⟩
    · rw [none, List.map_nil, List.append_nil] at means
      rw [means] at ends ⊢
      split at opens
      · exact opens
      · rcases opens with rfl | rfl <;> simp at ends
    · rw [means, steps, List.map_append, List.map_singleton, ← List.append_assoc,
        List.getLast?_concat] at ends
      cases step <;> simp [Step.component] at ends

/-- The path so many steps above another one, if there are as many. -/
def above? : Nat → Path → Option Path
  | 0, path => some path
  | steps + 1, path => path.parent?.bind (above? steps)

/-- Each step up takes one component away, from the end. -/
theorem above?_components (steps : Nat) (path above : Path) (up : path.above? steps = some above) :
    above.components <+: path.components ∧
      above.components.length + steps = path.components.length := by
  induction steps generalizing path with
  | zero =>
    obtain rfl := Option.some.inj up
    exact ⟨List.prefix_rfl, rfl⟩
  | succ steps inductionHypothesis =>
    obtain ⟨parent, first, further⟩ := Option.bind_eq_some_iff.mp up
    obtain ⟨last, -, whole⟩ := parent?_components path parent first
    obtain ⟨opens, fewer⟩ := inductionHypothesis parent further
    rw [whole, List.length_append, List.length_singleton]
    exact ⟨opens.trans (List.prefix_append _ _), by omega⟩

/-- What is above an absolute path is absolute. -/
theorem isAbsolute_parent? (path above : Path) (absolute : path.isAbsolute = true)
    (up : path.parent? = some above) : above.isAbsolute = true := by
  obtain ⟨last, other, whole⟩ := parent?_components path above up
  rw [isAbsolute_iff, whole] at absolute
  rw [isAbsolute_iff]
  cases inner : above.components with
  | nil => exact absurd (by simpa [inner] using absolute) other
  | cons first rest => simpa [inner] using absolute

/-- Of an absolute path there is a path above for each component but the root, and it means the
components that are left. The last one is the root alone. -/
theorem above?_absolute (path : Path) (absolute : path.isAbsolute = true) (steps : Nat) :
    (path.above? steps).map components =
      if steps < path.components.length then
        some (path.components.take (path.components.length - steps))
      else none := by
  induction steps generalizing path with
  | zero =>
    have written : path.components ≠ [] := by
      rw [isAbsolute_iff] at absolute
      intro none
      simp [none] at absolute
    simp [above?, List.length_pos_iff, written]
  | succ steps inductionHypothesis =>
    cases up : path.parent? with
    | none =>
      rcases components_of_orphan path up with none | root
      · rw [isAbsolute_iff, none] at absolute
        simp at absolute
      · simp [above?, up, root]
    | some parent =>
      obtain ⟨last, -, whole⟩ := parent?_components path parent up
      have further := inductionHypothesis parent (isAbsolute_parent? path parent absolute up)
      have left : parent.components.length + 1 - (steps + 1) = parent.components.length - steps :=
        Nat.add_sub_add_right _ _ _
      rw [above?, up, Option.bind_some, further, whole, List.length_append, List.length_singleton,
        left, List.take_append_of_le_length (Nat.sub_le _ _)]
      simp

/-- With a step for each component the list goes as far up as there are paths. -/
theorem upward_getElem? (left : Nat) (path : Path) (enough : path.components.length ≤ left)
    (steps : Nat) : (upward left path)[steps]? = path.above? steps := by
  induction left generalizing path steps with
  | zero =>
    have orphan : path.parent? = none := by
      cases up : path.parent? with
      | none => rfl
      | some parent =>
        obtain ⟨last, -, whole⟩ := parent?_components path parent up
        simp [whole] at enough
    cases steps <;> simp [upward, above?, orphan]
  | succ left inductionHypothesis =>
    cases up : path.parent? with
    | none => cases steps <;> simp [upward, above?, up]
    | some parent =>
      obtain ⟨last, -, whole⟩ := parent?_components path parent up
      rw [whole, List.length_append, List.length_singleton] at enough
      cases steps with
      | zero => simp [upward, above?, up]
      | succ steps =>
        simpa [upward, above?, up] using inductionHypothesis parent (by omega) steps

/-- The list of a path and those above it has each of them at its number of steps. -/
theorem ancestors_getElem? (path : Path) (steps : Nat) : path.ancestors[steps]? = path.above? steps :=
  upward_getElem? _ path (Nat.le_refl _) steps

/-- The list starts with the path, and goes on with the list of the path above it. -/
theorem ancestors_eq (path : Path) :
    path.ancestors = path :: ((path.parent?.map ancestors).getD []) := by
  refine List.ext_getElem? fun steps => ?_
  rw [ancestors_getElem?]
  cases steps with
  | zero => rfl
  | succ steps =>
    rw [List.getElem?_cons_succ, above?]
    cases path.parent? with
    | none => rfl
    | some parent => exact (ancestors_getElem? parent steps).symm

/-- No path comes twice among a path and those above it, in whatever spellings. -/
theorem ancestors_distinct (path : Path) : (path.ancestors.map components).Nodup := by
  rw [List.Nodup, List.pairwise_map, List.pairwise_iff_getElem]
  intro near far inside within nearer same
  have first := above?_components near path path.ancestors[near]
    (by rw [← ancestors_getElem?, List.getElem?_eq_getElem inside])
  have second := above?_components far path path.ancestors[far]
    (by rw [← ancestors_getElem?, List.getElem?_eq_getElem within])
  rw [same] at first
  omega

example : (Path.mk "/a//../b/.").ancestors = [⟨"/a//../b/."⟩, ⟨"/a//.."⟩, ⟨"/a"⟩, ⟨"/"⟩] := by decide

end BuildWatch.Path
