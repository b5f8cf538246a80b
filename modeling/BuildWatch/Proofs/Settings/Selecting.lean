import BuildWatch.Proofs.Files.Entries
import BuildWatch.Proofs.Settings.Loading
import BuildWatch.Proofs.Text.Border

/-!
# Files are selected by how their names end

Of a file name only what follows the last dot is compared with the listed extensions. Still a
listed extension selects every name that ends in a dot and the extension, as long as something
stands in front of the dot: an extension that is accepted holds no dot, so the dot in front of it
is the last one of the name. An extension with a dot would never be found.
-/

namespace BuildWatch

namespace Path

/-- The name of the file is something, a dot, and the extension. -/
def EndsIn (path : Path) (extension : Bytes) : Prop :=
  ∃ stem, stem ≠ [] ∧ path.fileName? = some (stem ++ dot :: extension)

/-- The extension of a file is the one without a dot that its name ends in. -/
theorem extension?_eq_some_iff (path : Path) (extension : Bytes) :
    path.extension? = some extension ↔ path.EndsIn extension ∧ dot ∉ extension := by
  constructor
  · intro found
    rw [extension?] at found
    split at found
    · simp at found
    · rename_i name named
      split at found
      · rename_i first before after cut
        obtain ⟨whole, plain⟩ := (cutLast_eq_some_iff dot name (first :: before) after).mp cut
        obtain rfl := Option.some.inj found
        exact ⟨⟨first :: before, List.cons_ne_nil _ _, by rw [named, whole]⟩, plain⟩
      · simp at found
  · rintro ⟨⟨stem, nonempty, named⟩, plain⟩
    obtain ⟨first, before, rfl⟩ := List.exists_cons_of_ne_nil nonempty
    have cut : cutLast dot (first :: before ++ dot :: extension) = some (first :: before, extension) :=
      (cutLast_eq_some_iff _ _ _ _).mpr ⟨rfl, plain⟩
    simp only [extension?, named, cut]

end Path

/-- A text is free of dots exactly when its bytes are. -/
theorem dot_mem_iff (text : String) : Path.dot ∈ Text.bytes text ↔ '.' ∈ text.toList :=
  Text.mem_bytes_iff (by decide) (by decide) text

theorem selects_iff (extensions : List String) (path : Path) :
    selects extensions path = true ↔
      extensions = [] ∨ ∃ extension ∈ extensions, path.EndsIn extension ∧ '.' ∉ extension.toList := by
  simp only [← dot_mem_iff, ← Path.extension?_eq_some_iff]
  rw [selects, Bool.or_eq_true, List.isEmpty_iff]
  refine or_congr_right ?_
  cases path.extension? with
  | none => simp
  | some found =>
    have named (extension : String) :
        some found = some (Text.bytes extension) ↔ Text.ofBytes? found = some extension := by
      rw [Option.some_inj, Text.ofBytes?_eq_some_iff]
    simp only [named, Option.bind_some]
    cases Text.ofBytes? found with
    | none => simp
    | some extension => simp

/-- **Files are selected by how their names end.** With extensions that are accepted, a file is
selected exactly when none is listed, or its name is something, a dot, and a listed extension. So a
listed extension that can end a name selects every file of such a name, in whatever folder. An
extension with a dot in it would select no file, and settings that list one are not accepted.

Proof: what is compared is the extension without a dot that the name ends in, and accepted
extensions hold no dot. -/
theorem accepted_extensions_select_by_ending (watch : WatchSettings)
    (accepted : watch.check = .ok ()) :
    (∀ path, selects watch.extensions path = true ↔
      watch.extensions = [] ∨ ∃ extension ∈ watch.extensions, path.EndsIn extension) ∧
    (∀ extension ∈ watch.extensions, '/' ∉ extension.toList →
      ∀ (folder : Path) (stem : Bytes), stem ≠ [] → Path.slash ∉ stem →
        (folder.child (stem ++ Path.dot :: extension)).fileName? =
          some (stem ++ Path.dot :: extension) ∧
        selects watch.extensions (folder.child (stem ++ Path.dot :: extension)) = true) ∧
    ∀ extension, '.' ∈ extension.toList →
      (∀ path, selects [extension] path = false) ∧
      ∀ other : WatchSettings, extension ∈ other.extensions → other.check ≠ .ok () := by
  obtain ⟨-, bare⟩ := (Settings.watch_check_ok_iff watch).mp accepted
  have selected (path : Path) : selects watch.extensions path = true ↔
      watch.extensions = [] ∨ ∃ extension ∈ watch.extensions, path.EndsIn extension := by
    rw [selects_iff]
    refine or_congr_right (exists_congr fun extension => and_congr_right fun listed => ?_)
    exact and_iff_left (bare extension listed).2
  refine ⟨selected, ?_, ?_⟩
  · intro extension listed inside folder stem nonempty plain
    have within : Path.slash ∉ Text.bytes extension := by
      rwa [Text.mem_bytes_iff (by decide) (show String.utf8EncodeChar '/' = _ by decide)]
    have named : (folder.child (stem ++ Path.dot :: extension)).fileName? =
        some (stem ++ Path.dot :: extension) := by
      have apart : Path.slash ≠ Path.dot := by decide
      refine Files.fileName?_child folder _ (fun dots => ?_) (by simp [plain, within, apart])
      -- With the dot and something on both sides of it the name is longer than two dots.
      have before : 0 < stem.length := List.length_pos_iff.mpr nonempty
      have after : 0 < (Text.bytes extension).length := by
        refine List.length_pos_iff.mpr fun empty => (bare extension listed).1 ?_
        exact (Text.bytes_inj extension "").mp empty
      have short : (stem ++ Path.dot :: Text.bytes extension).length ≤ 2 := by
        simp only [List.mem_cons, List.not_mem_nil, or_false] at dots
        rcases dots with dots | dots | dots <;> simp [dots]
      rw [List.length_append, List.length_cons] at short
      omega
    exact ⟨named, (selected _).mpr (Or.inr ⟨extension, listed, stem, nonempty, named⟩)⟩
  · intro extension dotted
    refine ⟨fun path => ?_, fun other listed accepted => ?_⟩
    · rw [Bool.eq_false_iff, ne_eq, selects_iff]
      simp [dotted]
    · exact (((Settings.watch_check_ok_iff other).mp accepted).2 extension listed).2 dotted

/-- A name of several dots is selected by what follows the last of them, and by nothing longer. -/
theorem skew_test_selected :
    WatchSettings.check { extensions := ["js", "sk"] } = .ok () ∧
      selects ["js", "sk"] ⟨"/p/a.test.sk"⟩ = true ∧ selects ["test.sk"] ⟨"/p/a.test.sk"⟩ = false := by
  have accepted : WatchSettings.check { extensions := ["js", "sk"] } = .ok () := by decide
  obtain ⟨-, named, dotted⟩ := accepted_extensions_select_by_ending _ accepted
  exact ⟨accepted, (named "sk" (by simp) (by decide) ⟨"/p"⟩ "a.test" (by decide) (by decide)).2,
    (dotted "test.sk" (by decide)).1 _⟩

end BuildWatch
