import BuildWatch.Roots.Diff
import Mathlib.Data.List.Induction
import Mathlib.Data.List.Sort

/-!
# Sets of paths in order

The order of paths is a total order of what they mean. A set of paths holds every meaning
at most once, so the sorted list of a set is decided by its members: two sets that hold the
same paths, in whatever spellings, are the same list of meanings when sorted. The difference of
two sets is empty exactly when they hold the same paths.
-/

namespace BuildWatch

namespace Component

/-- A component comes before another when its class does, or when its name does in their
one class. -/
theorem before_iff (left right : Component) :
    left.before right = true ↔
      left.rank < right.rank ∨ left.rank = right.rank ∧ left.nameBytes < right.nameBytes := by
  simp [before]

/-- A component is its class and its name. -/
theorem eq_of_rank (left right : Component) (class_ : left.rank = right.rank)
    (name : left.nameBytes = right.nameBytes) : left = right := by
  cases left <;> cases right <;> simp_all [rank, nameBytes]

theorem before_trans (left middle right : Component) (first : left.before middle = true)
    (second : middle.before right = true) : left.before right = true := by
  rw [before_iff] at *
  rcases first with lower | ⟨level, name⟩ <;> rcases second with higher | ⟨flat, further⟩
  · exact Or.inl (lower.trans higher)
  · exact Or.inl (flat ▸ lower)
  · exact Or.inl (level ▸ higher)
  · exact Or.inr ⟨level.trans flat, List.lt_trans name further⟩

theorem before_asymm (left right : Component) (first : left.before right = true) :
    right.before left = false := by
  rw [Bool.eq_false_iff]
  intro second
  have circle := before_trans left right left first second
  rw [before_iff] at circle
  rcases circle with lower | ⟨-, name⟩
  · exact lt_irrefl _ lower
  · exact List.lt_irrefl _ name

theorem before_total (left right : Component) (different : left ≠ right) :
    left.before right = true ∨ right.before left = true := by
  rw [before_iff, before_iff]
  rcases lt_trichotomy left.rank right.rank with lower | same | higher
  · exact Or.inl (Or.inl lower)
  · by_cases first : left.nameBytes < right.nameBytes
    · exact Or.inl (Or.inr ⟨same, first⟩)
    · by_cases second : right.nameBytes < left.nameBytes
      · exact Or.inr (Or.inr ⟨same.symm, second⟩)
      · have name := List.le_antisymm (List.not_lt.mp second) (List.not_lt.mp first)
        exact absurd (eq_of_rank left right same name) different
  · exact Or.inr (Or.inl higher)

end Component

namespace Path

theorem notAfter_total (left right : List Component) :
    notAfter left right = true ∨ notAfter right left = true := by
  induction left generalizing right with
  | nil => simp [notAfter]
  | cons first lefts inductionHypothesis =>
    cases right with
    | nil => simp [notAfter]
    | cons second rights =>
      by_cases same : first = second
      · simpa [notAfter, same] using inductionHypothesis rights
      · have different : ¬ second = first := fun eq => same eq.symm
        simpa [notAfter, same, different] using Component.before_total first second same

theorem notAfter_antisymm (left right : List Component) (first : notAfter left right = true)
    (second : notAfter right left = true) : left = right := by
  induction left generalizing right with
  | nil =>
    cases right with
    | nil => rfl
    | cons other rights => simp [notAfter] at second
  | cons one lefts inductionHypothesis =>
    cases right with
    | nil => simp [notAfter] at first
    | cons other rights =>
      by_cases same : one = other
      · subst same
        rw [inductionHypothesis rights (by simpa [notAfter] using first)
          (by simpa [notAfter] using second)]
      · have different : ¬ other = one := fun eq => same eq.symm
        have before : one.before other = true := by simpa [notAfter, same] using first
        have after : other.before one = true := by simpa [notAfter, different] using second
        simp [Component.before_asymm one other before] at after

theorem notAfter_trans (left middle right : List Component) (first : notAfter left middle = true)
    (second : notAfter middle right = true) : notAfter left right = true := by
  induction left generalizing middle right with
  | nil => simp [notAfter]
  | cons one lefts inductionHypothesis =>
    cases middle with
    | nil => simp [notAfter] at first
    | cons other middles =>
      cases right with
      | nil => simp [notAfter] at second
      | cons third rights =>
        simp only [notAfter] at first second ⊢
        by_cases same : one = other
        · subst same
          rw [if_pos rfl] at first
          split_ifs at second ⊢ with equal
          · exact inductionHypothesis middles rights first second
          · exact second
        · rw [if_neg same] at first
          by_cases equal : other = third
          · subst equal
            rwa [if_neg same]
          · rw [if_neg equal] at second
            have before := Component.before_trans one other third first second
            have apart : one ≠ third := by
              rintro rfl
              simp [Component.before_asymm one other first] at second
            rwa [if_neg apart]

/-- A list holds a path when it holds its meaning. -/
theorem memberOf_iff (path : Path) (paths : List Path) :
    path.memberOf paths = true ↔ path.components ∈ paths.map components := by
  rw [memberOf, List.any_eq_true, List.mem_map]
  simp only [same, beq_iff_eq]
  exact exists_congr fun other => and_congr_right fun _ => eq_comm

/-- What a set with one more path holds. -/
theorem mem_insertInto (paths : List Path) (path : Path) (meaning : List Component) :
    meaning ∈ (insertInto paths path).map components ↔
      meaning ∈ paths.map components ∨ meaning = path.components := by
  rw [insertInto]
  split_ifs with held
  · rw [memberOf_iff] at held
    constructor
    · exact Or.inl
    · rintro (member | rfl)
      · exact member
      · exact held
  · rw [List.map_append, List.mem_append, List.map_singleton, List.mem_singleton]

/-- A set with one more path is a set. -/
theorem insertInto_distinct (paths : List Path) (path : Path)
    (distinct : (paths.map components).Nodup) : ((insertInto paths path).map components).Nodup := by
  rw [insertInto]
  split_ifs with held
  · exact distinct
  · rw [memberOf_iff] at held
    rw [List.map_append, List.nodup_append]
    refine ⟨distinct, by simp, ?_⟩
    rintro meaning member other last rfl
    obtain rfl : meaning = path.components := by simpa using last
    exact held member

/-- What is left of a list of paths when they are chosen by their meanings. -/
theorem mem_filter_meanings (paths : List Path) (chosen : Path → Bool)
    (property : List Component → Prop)
    (means : ∀ path : Path, chosen path = true ↔ property path.components) (meaning : List Component) :
    meaning ∈ (paths.filter chosen).map components ↔
      meaning ∈ paths.map components ∧ property meaning := by
  rw [List.mem_map, List.mem_map]
  constructor
  · rintro ⟨path, member, rfl⟩
    obtain ⟨member, holds⟩ := List.mem_filter.mp member
    exact ⟨⟨path, member, rfl⟩, (means path).mp holds⟩
  · rintro ⟨⟨path, member, rfl⟩, holds⟩
    exact ⟨path, List.mem_filter.mpr ⟨member, (means path).mpr holds⟩, rfl⟩

/-- What a set without a path holds. -/
theorem mem_eraseFrom (paths : List Path) (path : Path) (meaning : List Component) :
    meaning ∈ (eraseFrom paths path).map components ↔
      meaning ∈ paths.map components ∧ meaning ≠ path.components := by
  refine mem_filter_meanings paths _ (· ≠ path.components) (fun other => ?_) meaning
  rw [same, Bool.not_eq_true', beq_eq_false_iff_ne]
  exact ne_comm

/-- What one set holds and another does not. -/
theorem mem_without (paths others : List Path) (meaning : List Component) :
    meaning ∈ (without paths others).map components ↔
      meaning ∈ paths.map components ∧ meaning ∉ others.map components := by
  refine mem_filter_meanings paths _ (· ∉ others.map components) (fun path => ?_) meaning
  rw [Bool.not_eq_true', ← memberOf_iff, Bool.not_eq_true]

/-- Sorting keeps the paths. -/
theorem sort_perm (paths : List Path) : (sort paths).Perm paths := List.mergeSort_perm _ _

theorem mem_sort (paths : List Path) (meaning : List Component) :
    meaning ∈ (sort paths).map components ↔ meaning ∈ paths.map components :=
  ((sort_perm paths).map components).mem_iff

/-- The set of some paths holds each of their meanings once. -/
theorem setOf_meanings (paths : List Path) :
    ((setOf paths).map components).Nodup ∧
      ∀ meaning, meaning ∈ (setOf paths).map components ↔ meaning ∈ paths.map components := by
  induction paths using List.reverseRecOn with
  | nil => simp [setOf]
  | append_singleton before path inductionHypothesis =>
    obtain ⟨distinct, members⟩ := inductionHypothesis
    have step : setOf (before ++ [path]) = insertInto (setOf before) path := by simp [setOf]
    rw [step]
    refine ⟨insertInto_distinct _ path distinct, fun meaning => ?_⟩
    rw [mem_insertInto, members]
    simp

/-- A sorted list is in order. -/
theorem sort_ordered (paths : List Path) :
    (sort paths).Pairwise fun one other => one.le other = true := by
  have trans (one middle other : Path) := notAfter_trans one.components middle.components other.components
  have total (one other : Path) : (one.le other || other.le one) = true := by
    rw [Bool.or_eq_true]
    exact notAfter_total one.components other.components
  exact List.pairwise_mergeSort trans total paths

/-- The sorted list is decided by how often each path is in it, in whatever spellings. -/
theorem sort_congr (paths others : List Path)
    (same : (paths.map components).Perm (others.map components)) :
    (sort paths).map components = (sort others).map components := by
  have ordered (list : List Path) : ((sort list).map components).Pairwise fun one other =>
      notAfter one other = true := List.pairwise_map.mpr (sort_ordered list)
  have kept (list : List Path) := (sort_perm list).map components
  exact ((kept paths).trans (same.trans (kept others).symm)).eq_of_pairwise
    (fun one other _ _ => notAfter_antisymm one other) (ordered paths) (ordered others)

/-- The sorted list of a set is decided by the paths in it. -/
theorem sort_meanings (paths others : List Path) (distinct : (paths.map components).Nodup)
    (apart : (others.map components).Nodup)
    (members : ∀ meaning, meaning ∈ paths.map components ↔ meaning ∈ others.map components) :
    (sort paths).map components = (sort others).map components :=
  sort_congr paths others ((List.perm_ext_iff_of_nodup distinct apart).mpr members)

end Path

/-- The difference of two sets is empty when they hold the same paths. -/
theorem RootsDiff.isEmpty_iff (old new : List Path) :
    (RootsDiff.between old new).isEmpty = true ↔
      ∀ meaning, meaning ∈ old.map Path.components ↔ meaning ∈ new.map Path.components := by
  have none (paths others : List Path) : (Path.sort (Path.without paths others)).isEmpty = true ↔
      ∀ meaning ∈ paths.map Path.components, meaning ∈ others.map Path.components := by
    rw [List.isEmpty_iff, ← List.length_eq_zero_iff, Path.sort, List.length_mergeSort,
      List.length_eq_zero_iff, Path.without, List.filter_eq_nil_iff]
    simp [Path.memberOf_iff]
  rw [RootsDiff.between, RootsDiff.isEmpty, Bool.and_eq_true, none, none]
  constructor
  · rintro ⟨added, removed⟩ meaning
    exact ⟨removed meaning, added meaning⟩
  · intro same
    exact ⟨fun meaning => (same meaning).mpr, fun meaning => (same meaning).mp⟩

end BuildWatch
