import BuildWatch.Proofs.Files.Meaning
import BuildWatch.Proofs.Path.Order
import BuildWatch.Proofs.Walk.Found
import BuildWatch.Proofs.Watch.Repetition

/-!
# Changes of visible files

What is hidden is decided twice. A walk goes down from its root and leaves hidden names out one
by one, so all that it shows lies below the root under visible names. A change is judged from its
path alone: of the roots that open the path the first one counts, and the path is hidden when some
component behind that root is.

The roots are in order, and of two paths that open a third one the shorter comes first. So it is
the topmost root that counts. When a root lies under a hidden name of another root, the upper one
counts for all that is below the lower one, and changes there are not heard, although a walk of
the lower root shows the files. Below every other root a change of a visible file is heard.
-/

namespace BuildWatch

namespace Path

/-- A path opens another one when its components do. -/
theorem isPrefixOf_iff (base path : Path) :
    base.isPrefixOf path = true ↔ base.components <+: path.components := by
  rw [isPrefixOf, List.isPrefixOf_iff_prefix]

/-- What opens a list of components does not come after it. -/
theorem notAfter_of_opens (one other : List Component) (opens : one <+: other) :
    notAfter one other = true := by
  induction one generalizing other with
  | nil => rfl
  | cons first rest inductionHypothesis =>
    obtain ⟨more, rfl⟩ := opens
    simpa [notAfter] using inductionHypothesis (rest ++ more) (List.prefix_append rest more)

/-- In an ordered list the first path that opens a given one opens all others that do. -/
theorem topmost_of_find? (roots : List Path) (path top : Path)
    (ordered : roots.Pairwise fun one other => one.le other = true)
    (first : roots.find? (·.isPrefixOf path) = some top) :
    ∀ other ∈ roots, other.isPrefixOf path = true → top.isPrefixOf other = true := by
  intro other member opens
  obtain ⟨opensTop, before, after, rfl, others⟩ := List.find?_eq_some_iff_append.mp first
  rw [isPrefixOf_iff] at opens opensTop ⊢
  obtain ⟨-, later, -⟩ := List.pairwise_append.mp ordered
  rcases List.mem_append.mp member with earlier | same | behind
  · have closed := others other earlier
    rw [Bool.not_eq_true', ← Bool.not_eq_true, isPrefixOf_iff] at closed
    exact absurd opens closed
  · exact List.prefix_rfl
  · have first : top.le other = true := (List.pairwise_cons.mp later).1 other ‹_›
    rcases List.prefix_or_prefix_of_prefix opensTop opens with above | below
    · exact above
    · have same := notAfter_antisymm _ _ first (notAfter_of_opens _ _ below)
      exact same ▸ List.prefix_rfl

/-- A path lies behind another one, and some component between the two is hidden. -/
def HiddenBelow (base path : Path) : Prop :=
  base.isPrefixOf path = true ∧
    ∃ component ∈ path.components.drop base.components.length, component.isHidden = true

/-- A path is another one followed by visible names. -/
def VisibleBelow (base path : Path) : Prop :=
  ∃ names : List Bytes, path.components = base.components ++ names.map .name ∧
    ∀ name ∈ names, isHiddenName name = false

/-- What is hidden below a path is hidden below all that opens the path. -/
theorem HiddenBelow.upward (top base path : Path) (opens : top.isPrefixOf base = true)
    (hidden : HiddenBelow base path) : HiddenBelow top path := by
  obtain ⟨below, component, member, isHidden⟩ := hidden
  rw [isPrefixOf_iff] at opens below
  refine ⟨(isPrefixOf_iff top path).mpr (opens.trans below), component, ?_, isHidden⟩
  exact List.drop_subset_drop_left _ opens.length_le member

/-- Visible names behind a path hide nothing. -/
theorem VisibleBelow.hidden_iff (top base path : Path) (opens : top.isPrefixOf base = true)
    (visible : VisibleBelow base path) : HiddenBelow top path ↔ HiddenBelow top base := by
  obtain ⟨names, means, seen⟩ := visible
  have above := ((isPrefixOf_iff top base).mp opens).length_le
  rw [HiddenBelow, HiddenBelow, isPrefixOf_iff, isPrefixOf_iff, means,
    List.drop_append_of_le_length above]
  have opened := (isPrefixOf_iff top base).mp opens
  simp only [opened, opened.trans (List.prefix_append _ _), true_and, List.mem_append, or_and_right,
    exists_or, or_iff_left_iff_imp]
  rintro ⟨component, member, isHidden⟩
  obtain ⟨name, within, rfl⟩ := List.mem_map.mp member
  exact absurd isHidden (by simp [Component.isHidden, seen name within])

theorem VisibleBelow.opens (base path : Path) (visible : VisibleBelow base path) :
    base.isPrefixOf path = true := by
  obtain ⟨names, means, -⟩ := visible
  rw [isPrefixOf_iff, means]
  exact List.prefix_append _ _

/-- A path is hidden when it is hidden below the topmost root that opens it. -/
theorem isHiddenUnder_iff (roots : List Path) (path : Path)
    (ordered : roots.Pairwise fun one other => one.le other = true) :
    path.isHiddenUnder roots = true ↔
      ∃ top ∈ roots, HiddenBelow top path ∧
        ∀ other ∈ roots, other.isPrefixOf path = true → top.isPrefixOf other = true := by
  rw [isHiddenUnder]
  cases first : roots.find? (·.isPrefixOf path) with
  | none =>
    have closed := List.find?_eq_none.mp first
    simp only [Bool.false_eq_true, false_iff, not_exists, not_and]
    exact fun top member hidden => absurd hidden.1 (closed top member)
  | some root =>
    have opens : root.isPrefixOf path = true :=
      (List.find?_eq_some_iff_append.mp first).1
    have topmost := topmost_of_find? roots path root ordered first
    simp only [List.any_eq_true]
    constructor
    · exact fun hidden => ⟨root, List.mem_of_find?_eq_some first, ⟨opens, hidden⟩, topmost⟩
    · rintro ⟨top, member, hidden, highest⟩
      have upper := highest root (List.mem_of_find?_eq_some first) opens
      have lower := topmost top member hidden.1
      exact (hidden.upward root top path lower).2

end Path

namespace Walk

open Files (Disk Folder)

variable (disk : Disk) (trouble : Trouble)

/-- A path that a walk of a root shows: a folder that it enters, or a file that it finds. -/
def Shows (root path : Path) : Prop :=
  (∃ entries, Entered disk trouble root path entries) ∨ Found disk trouble root path

/-- An entry with a visible name stays visible below whatever its folder is visible below. -/
theorem child_visible (wellFormed : disk.top.WellFormed) (root folder : Path) (entries : Folder)
    (name : Bytes) (node : Files.Node) (entered : Entered disk trouble root folder entries)
    (holds : entries.get? name = some node) (seen : isHiddenName name = false)
    (visible : root.VisibleBelow folder) : root.VisibleBelow (folder.child name) := by
  obtain ⟨valid, written⟩ := entered.named disk trouble wellFormed root folder entries name node holds
  obtain ⟨names, means, all⟩ := visible
  refine ⟨names ++ [name], ?_, ?_⟩
  · rw [Path.child, Path.components_join folder ⟨name⟩ (Files.name_relative name valid) written, means,
      Path.moves_stepsOf, Files.pieceSteps_name name valid]
    simp [Files.moves, Files.Step.component]
  · intro other member
    rcases List.mem_append.mp member with earlier | last
    · exact all other earlier
    · exact List.mem_singleton.mp last ▸ seen

/-- The folders that a walk enters are visible below its root. -/
theorem Entered.visible (wellFormed : disk.top.WellFormed) (root folder : Path) (entries : Folder)
    (entered : Entered disk trouble root folder entries) : root.VisibleBelow folder := by
  induction entered with
  | top entries leads listed => exact ⟨[], by simp, by simp⟩
  | within folder entries inner name above holds seen inspected listed inductionHypothesis =>
    exact child_visible disk trouble wellFormed root folder entries name _ above holds seen
      inductionHypothesis

/-- All that a walk shows is visible below its root. -/
theorem Shows.visible (wellFormed : disk.top.WellFormed) (root path : Path)
    (shows_ : Shows disk trouble root path) : root.VisibleBelow path := by
  have below (node : Files.Node) (seen : Seen disk trouble root path node) : root.VisibleBelow path := by
    obtain ⟨folder, entries, name, node, above, holds, unhidden⟩ := seen
    exact child_visible disk trouble wellFormed root folder entries name node above holds unhidden
      (above.visible disk trouble wellFormed root folder entries)
  rcases shows_ with ⟨entries, entered⟩ | ⟨content, seen, -⟩ | ⟨target, content, seen, -, -⟩
  · exact entered.visible disk trouble wellFormed root path entries
  · exact below _ seen
  · exact below _ seen

end Walk

/-- What a set with some more paths holds. -/
theorem Path.mem_insertAll (paths more : List Path) (meaning : List Component) :
    meaning ∈ (more.foldl insertInto paths).map components ↔
      meaning ∈ paths.map components ∨ meaning ∈ more.map components := by
  induction more generalizing paths with
  | nil => simp
  | cons first rest inductionHypothesis =>
    rw [List.foldl_cons, inductionHypothesis, mem_insertInto, List.map_cons, List.mem_cons, or_assoc]

namespace Watcher

open BuildWatch.Path (HiddenBelow VisibleBelow)

/-- A root lies under a hidden name of another one. -/
def Buried (roots : List Path) (root : Path) : Prop := ∃ above ∈ roots, HiddenBelow above root

/-- A change was heard at a moment: the quiet window started then, and the path is among those
that wait. -/
def Heard (now : Nat) (path : Path) (state : Watcher) : Prop :=
  state.debouncer.last = some now ∧ path.memberOf state.debouncer.changed = true

/-- A visible name below a root is hidden exactly when the root is buried. -/
theorem hidden_iff_buried (state : Watcher) (root path : Path)
    (listed : root ∈ state.subscriptions.roots) (visible : root.VisibleBelow path) :
    path.isHiddenUnder state.subscriptions.roots = true ↔ Buried state.subscriptions.roots root := by
  have ordered := Path.sort_ordered state.subscriptions.wanted
  have opens := visible.opens root path
  constructor
  · intro hidden
    obtain ⟨top, member, below, highest⟩ := (Path.isHiddenUnder_iff _ path ordered).mp hidden
    exact ⟨top, member, (visible.hidden_iff top root path (highest root listed opens)).mp below⟩
  · rintro ⟨above, member, buried⟩
    have below := (visible.hidden_iff above root path buried.1).mpr buried
    rw [Path.isHiddenUnder]
    cases first : state.subscriptions.roots.find? (·.isPrefixOf path) with
    | none => exact absurd opens (List.find?_eq_none.mp first root listed)
    | some top =>
      have upper := Path.topmost_of_find? _ path top ordered first above member below.1
      exact List.any_eq_true.mpr (below.upward top above path upper).2

/-- A path that is hidden below every root that opens it is hidden. -/
theorem hidden_below_all (state : Watcher) (path : Path)
    (opened : ∃ root ∈ state.subscriptions.roots, root.isPrefixOf path = true)
    (hidden : ∀ root ∈ state.subscriptions.roots, root.isPrefixOf path = true → HiddenBelow root path) :
    path.isHiddenUnder state.subscriptions.roots = true := by
  rw [Path.isHiddenUnder]
  cases first : state.subscriptions.roots.find? (·.isPrefixOf path) with
  | none =>
    obtain ⟨root, member, opens⟩ := opened
    exact absurd opens (List.find?_eq_none.mp first root member)
  | some top =>
    have member := List.mem_of_find?_eq_some first
    have opens := (List.find?_eq_some_iff_append.mp first).1
    exact List.any_eq_true.mpr (hidden top member opens).2

/-- A path that is not hidden is heard of, whatever changes with it. -/
theorem change_heard (now : Nat) (state : Watcher) (path : Path) (before after : List Path)
    (visible : path.isHiddenUnder state.subscriptions.roots = false) :
    Heard now path (change now state (before ++ path :: after)) := by
  have kept : path ∈ (before ++ path :: after).filter
      (!Path.isHiddenUnder state.subscriptions.roots ·) := by simp [visible]
  have nonempty : ((before ++ path :: after).filter
      (!Path.isHiddenUnder state.subscriptions.roots ·)).isEmpty = false := by
    rw [Bool.eq_false_iff, ne_eq, List.isEmpty_iff]
    exact List.ne_nil_of_mem kept
  rw [change, nonempty]
  refine ⟨rfl, ?_⟩
  rw [Path.memberOf_iff]
  exact (Path.mem_insertAll _ _ _).mpr (Or.inr (List.mem_map_of_mem kept))

/-- A path that is hidden is no change, and changes nothing about a change of others. -/
theorem change_unheard (now : Nat) (state : Watcher) (path : Path) (before after : List Path)
    (hidden : path.isHiddenUnder state.subscriptions.roots = true) :
    change now state [path] = state ∧
      (before ++ after ≠ [] →
        change now state (before ++ path :: after) = change now state (before ++ after)) := by
  constructor
  · simp [change, hidden]
  · intro others
    have some (list : List Path) (nonempty : list ≠ []) : (!list.isEmpty) = true := by simpa using nonempty
    rw [change, change, some _ others, some (before ++ path :: after) (by simp)]
    simp only [List.filter_append, List.filter_cons, hidden, Bool.not_true, Bool.false_eq_true, if_false]

/-- **A change of a visible file is heard, unless its root is buried.** Let a path be a root
followed by visible names; all that a walk of the root shows is such a path.

The path is hidden exactly when the root lies under a hidden name of another root. If the root
does not, a change that names the path starts the quiet window and puts the path among those that
wait, whatever else the change names. If it does, a change of the path alone is none, and a change
of others is what it is without the path. And a path that is hidden below every root that opens
it, with at least one such root, is hidden, and a change of it alone is none.

Proof: the roots are in order, so the first one that opens the path opens all others that do.
Hidden components behind any of these are behind this one, and the visible names at the end of
the path add none. -/
theorem visible_change_heard_unless_buried (state : Watcher) (now : Nat) (root path : Path)
    (listed : root ∈ state.subscriptions.roots) (visible : root.VisibleBelow path)
    (before after : List Path) :
    (path.isHiddenUnder state.subscriptions.roots = true ↔ Buried state.subscriptions.roots root) ∧
    (¬ Buried state.subscriptions.roots root →
      Heard now path (change now state (before ++ path :: after))) ∧
    (Buried state.subscriptions.roots root →
      change now state [path] = state ∧
        (before ++ after ≠ [] →
          change now state (before ++ path :: after) = change now state (before ++ after))) ∧
    (∀ disk trouble, disk.top.WellFormed → ∀ shown,
      Walk.Shows disk trouble root shown → root.VisibleBelow shown) ∧
    ∀ other : Path, (∃ base ∈ state.subscriptions.roots, base.isPrefixOf other = true) →
      (∀ base ∈ state.subscriptions.roots, base.isPrefixOf other = true → HiddenBelow base other) →
      other.isHiddenUnder state.subscriptions.roots = true ∧ change now state [other] = state := by
  have hidden := hidden_iff_buried state root path listed visible
  refine ⟨hidden, fun free => ?_, fun buried => ?_, ?_, fun other opened below => ?_⟩
  · apply change_heard
    rw [Bool.eq_false_iff]
    exact fun isHidden => free (hidden.mp isHidden)
  · exact change_unheard now state path before after (hidden.mpr buried)
  · exact fun disk trouble wellFormed shown shows_ =>
      shows_.visible disk trouble wellFormed root shown
  · have isHidden := hidden_below_all state other opened below
    exact ⟨isHidden, (change_unheard now state other [] [] isHidden).1⟩

/-- A watcher of a project with some roots, all of which are there. -/
def ofRoots (roots : List Path) : Watcher :=
  (startIn { has := fun _ => true } (Project.withRoots roots) none).value

/-- The roots of a watcher that were given as a set in order. -/
theorem ofRoots_roots (roots : List Path) (distinct : Path.setOf roots = roots)
    (ordered : roots.Pairwise fun one other => one.le other = true) :
    (ofRoots roots).subscriptions.roots = roots := by
  have wanted : (ofRoots roots).subscriptions.wanted = roots := distinct
  rw [Subscriptions.roots, wanted]
  exact List.mergeSort_of_pairwise ordered

/-- A root of its own in a hidden folder is not buried, and a change below it is heard. -/
theorem change_in_hidden_folder_heard :
    (⟨"/q/.gen"⟩ : Path) ∈ (ofRoots [⟨"/p"⟩, ⟨"/q/.gen"⟩]).subscriptions.roots ∧
      Path.VisibleBelow ⟨"/q/.gen"⟩ ⟨"/q/.gen/a.sk"⟩ ∧
      Heard 5 ⟨"/q/.gen/a.sk"⟩
        (change 5 (ofRoots [⟨"/p"⟩, ⟨"/q/.gen"⟩]) [⟨"/q/.git/x"⟩, ⟨"/q/.gen/a.sk"⟩]) := by
  have roots := ofRoots_roots [⟨"/p"⟩, ⟨"/q/.gen"⟩] (by decide) (by decide)
  have listed : (⟨"/q/.gen"⟩ : Path) ∈ (ofRoots [⟨"/p"⟩, ⟨"/q/.gen"⟩]).subscriptions.roots := by
    simp [roots]
  have visible : Path.VisibleBelow ⟨"/q/.gen"⟩ ⟨"/q/.gen/a.sk"⟩ := ⟨["a.sk"], by decide, by decide⟩
  have free : ¬ Buried (ofRoots [⟨"/p"⟩, ⟨"/q/.gen"⟩]).subscriptions.roots ⟨"/q/.gen"⟩ := by
    rw [roots]
    rintro ⟨above, member, opens, component, between, -⟩
    rcases List.mem_cons.mp member with rfl | member
    · exact absurd opens (by decide)
    · obtain rfl := List.mem_singleton.mp member
      simp at between
  obtain ⟨-, heard, -⟩ := visible_change_heard_unless_buried
    (ofRoots [⟨"/p"⟩, ⟨"/q/.gen"⟩]) 5 ⟨"/q/.gen"⟩ ⟨"/q/.gen/a.sk"⟩ listed visible [⟨"/q/.git/x"⟩] []
  exact ⟨listed, visible, heard free⟩

/-- Below a root that lies under a hidden name of another root a change is not heard. -/
theorem change_below_buried_root_unheard :
    (Project.withRoots [⟨"/p"⟩, ⟨"/p/.gen"⟩]).settings.check = .ok () ∧
      (⟨"/p/.gen"⟩ : Path) ∈ (ofRoots [⟨"/p"⟩, ⟨"/p/.gen"⟩]).subscriptions.roots ∧
      Path.VisibleBelow ⟨"/p/.gen"⟩ ⟨"/p/.gen/a.sk"⟩ ∧
      Path.isHiddenUnder (ofRoots [⟨"/p"⟩, ⟨"/p/.gen"⟩]).subscriptions.roots ⟨"/p/.gen/a.sk"⟩ = true ∧
      change 5 (ofRoots [⟨"/p"⟩, ⟨"/p/.gen"⟩]) [⟨"/p/.gen/a.sk"⟩] =
        ofRoots [⟨"/p"⟩, ⟨"/p/.gen"⟩] := by
  have roots := ofRoots_roots [⟨"/p"⟩, ⟨"/p/.gen"⟩] (by decide) (by decide)
  have hidden : Path.isHiddenUnder (ofRoots [⟨"/p"⟩, ⟨"/p/.gen"⟩]).subscriptions.roots
      ⟨"/p/.gen/a.sk"⟩ = true := by
    rw [roots]
    decide
  refine ⟨by decide, by simp [roots], ⟨["a.sk"], by decide, by decide⟩, hidden, ?_⟩
  exact (change_unheard 5 _ _ [] [] hidden).1

end Watcher
end BuildWatch
