import BuildWatch.Proofs.Files.Normal
import BuildWatch.Proofs.Location.Grammar
import BuildWatch.Proofs.Path.Relative
import BuildWatch.Report
import BuildWatch.Worker.Order

/-!
# Shown places can be typed back

The place of a diagnostic is shown in front of it, with its source named relative to the root of
the project when it is below that. What is shown is a location, and a question about the location
is a question about the place of the diagnostic.

For a source that is not below the root nothing is needed for this, since it is shown in full. A
source below the root is shown by a relative text, and that is read from the current folder. It
leads back when the current folder is the root and the source is named without links. A name
below the root may begin with a blank character; only then the text is not read whole.
-/

namespace BuildWatch

open Text (OpensSolid)

namespace Files

variable (disk : Disk)

/-- A source is below a root that is the current folder, and is its own normal path. -/
structure BelowHere (root source : Path) : Prop where
  here : ∃ entries, disk.top.node? disk.current = some (.folder entries)
  current : root.same disk.currentPath = true
  below : Path.Below root source
  own : ∃ name, disk.canonical? source = .ok name ∧ name.same source = true

/-- The text of a source behind the root leads to the source, and is normalized to it. -/
theorem BelowHere.found (wellFormed : disk.top.WellFormed) (root source rest : Path)
    (belowHere : BelowHere disk root source) (relative : rest.isAbsolute = false)
    (means : source.components = root.components ++ (moves (stepsOf rest.bytes)).map Step.component)
    (ends : ∃ step, (stepsOf rest.bytes).getLast? = some step ∧ step ≠ .stay) :
    disk.has rest = true ∧ (disk.normalize rest).same source = true := by
  obtain ⟨entries, here⟩ := belowHere.here
  obtain ⟨name, canonical, own⟩ := belowHere.own
  obtain ⟨place, leads, rfl⟩ : ∃ place, disk.placeOf true source = .ok place ∧ place.path = name := by
    rw [Disk.canonical?] at canonical
    cases leads : disk.placeOf true source with
    | error fault => simp [leads, Except.map] at canonical
    | ok place => exact ⟨place, rfl, by simpa [leads, Except.map] using canonical⟩
  obtain ⟨step, last, goes⟩ := ends
  have written : rest.bytes.isEmpty = false := by
    rw [Bool.eq_false_iff, ne_eq, List.isEmpty_iff]
    exact Path.written_of_step rest.bytes step last
  have base : disk.currentPath.bytes.isEmpty = false := (path_absolute disk.current).2
  have same : source.same (disk.currentPath.join rest) = true := by
    have current := belowHere.current
    rw [Path.same, beq_iff_eq] at current ⊢
    rw [Path.components_join _ rest relative base, means, current]
  have found : disk.placeOf true rest = .ok place := by
    rw [← placeOf_current disk wellFormed true rest entries here relative written]
    by_cases stays : (stepsOf source.bytes).getLast? = some .stay
    · obtain ⟨inner, stands⟩ := stay_folder disk source place leads stays
      exact placeOf_folder_same disk source _ same place inner leads stands
    · rw [← leads]
      refine (placeOf_same disk true source _ same (iff_of_false stays ?_)).symm
      rw [stepsOf_join _ rest relative base written, List.getLast?_append, last, Option.some_or]
      simpa using goes
  obtain ⟨node, stands, -⟩ := placeOf_firm disk rest place ⟨_, here, by simp⟩ found
  refine ⟨?_, ?_⟩
  · rw [Disk.has, nodeOf_eq disk true rest place node found stands]
    rfl
  · rwa [normalize_ok disk rest place found]

/-- What a path below a root is shown as is taken for the path. -/
theorem BelowHere.sourceOf (wellFormed : disk.top.WellFormed) (root : Path) (source : String)
    (absolute : root.isAbsolute = true) (belowHere : BelowHere disk root ⟨source⟩) :
    ∃ shown : String, root.relativeTo ⟨source⟩ = ⟨shown⟩ ∧ shown.toList ≠ [] ∧
      (disk.sourceOf root ⟨shown⟩).same ⟨source⟩ = true := by
  obtain ⟨rest, stripped, relative, means, ends, text⟩ :=
    Path.stripPrefix?_below root ⟨source⟩ absolute belowHere.below
  obtain ⟨there, named⟩ := belowHere.found disk wellFormed root _ rest relative means ends
  obtain ⟨shown, written⟩ := text ⟨source, rfl⟩
  obtain rfl : rest = ⟨shown⟩ := congrArg Path.mk written
  refine ⟨shown, by rw [Path.relativeTo, stripped, Option.getD_some], ?_, ?_⟩
  · intro empty
    rw [String.toList_eq_nil_iff] at empty
    rw [Disk.has, Disk.nodeOf, Disk.placeOf, empty] at there
    simp [Text.bytes, Except.isOk, Except.toBool] at there
  · rwa [Disk.sourceOf, relative, if_pos there]

end Files

/-- A number that is one more is counted from zero as the number. -/
theorem Location.fromZero_succ (number : UInt32) (fits : number.toNat + 1 < UInt32.size) :
    number + 1 ≠ 0 ∧ Location.fromZero (number + 1) = number := by
  have value : (number + 1).toNat = number.toNat + 1 := by
    rw [UInt32.toNat_add]
    exact Nat.mod_eq_of_lt fits
  have positive : number + 1 ≠ 0 := by
    intro zero
    rw [zero] at value
    simp at value
  refine ⟨positive, ?_⟩
  rw [Location.fromZero, if_neg positive]
  simp

/-- A text whose bytes start with a slash starts with a slash. -/
theorem Text.opens_slash (text : String) (rooted : Path.isRooted text = true) :
    ∃ rest, text.toList = '/' :: rest := by
  apply List.head?_eq_some_iff.mp
  exact (Text.head?_bytes_iff (by decide) (by decide) text).mp (beq_iff_eq.mp rooted)

/-- The path of the source of a diagnostic. -/
def Diagnostic.source (diagnostic : Diagnostic) : Path := ⟨diagnostic.range.source⟩

/-- **Shown places can be typed back.** Let a diagnostic have an absolute source, and let the root
be absolute. Let the source not be below the root; or let it be strictly below, be its own normal
path, have a text behind the root that does not begin with a blank character, and let the
current folder be the root. Then what is shown in front of the diagnostic is read as a location,
and a question about that is about the source, line and column of the diagnostic. -/
theorem Diagnostic.shown_place_typed_back (disk : Files.Disk) (wellFormed : disk.top.WellFormed)
    (root : Path) (absolute : root.isAbsolute = true) (diagnostic : Diagnostic)
    (rooted : diagnostic.source.isAbsolute = true)
    (line : diagnostic.range.start.line.toNat + 1 < UInt32.size)
    (column : diagnostic.range.start.column.toNat + 1 < UInt32.size)
    (known : ¬ root.components <+: diagnostic.source.components ∨
      Files.BelowHere disk root diagnostic.source ∧
        OpensSolid (root.relativeTo diagnostic.source).text.toList) :
    ∃ shown location asked,
      diagnostic.line root =
        shown ++ ": " ++ diagnostic.severity.label ++ ": " ++ diagnostic.text ∧
      Location.read shown = .ok location ∧
      Order.about disk root location =
        .tooltip asked diagnostic.range.start.line diagnostic.range.start.column ∧
      Path.same ⟨asked⟩ diagnostic.source = true := by
  obtain ⟨shown, shows, there, opens, back⟩ : ∃ shown : String,
      root.relativeTo diagnostic.source = ⟨shown⟩ ∧ shown.toList ≠ [] ∧ OpensSolid shown.toList ∧
      (disk.sourceOf root ⟨shown⟩).same diagnostic.source = true := by
    rcases known with apart | ⟨belowHere, opens⟩
    · have whole : root.relativeTo diagnostic.source = diagnostic.source := by
        have unprefixed : ¬ root.isPrefixOf diagnostic.source = true := fun below =>
          apart (List.isPrefixOf_iff_prefix.mp below)
        rw [Path.relativeTo, Path.stripPrefix?, if_neg unprefixed, Option.getD_none]
      obtain ⟨rest, written⟩ := Text.opens_slash diagnostic.range.source rooted
      refine ⟨diagnostic.range.source, whole, ?_⟩
      rw [Diagnostic.source] at rooted ⊢
      rw [written, Files.Disk.sourceOf, if_pos rooted, Path.same, beq_self_eq_true]
      exact ⟨List.cons_ne_nil _ _, by rintro c ⟨⟩; decide, rfl⟩
    · obtain ⟨shown, shows, there, back⟩ := belowHere.sourceOf disk wellFormed root _ absolute
      rw [Diagnostic.source, shows, Path.text, Text.shown_bytes] at opens
      exact ⟨shown, shows, there, opens, back⟩
  obtain ⟨lines, lineBack⟩ := Location.fromZero_succ _ line
  obtain ⟨columns, columnBack⟩ := Location.fromZero_succ _ column
  refine ⟨diagnostic.range.label root, ⟨⟨shown⟩, diagnostic.range.start.line + 1,
    diagnostic.range.start.column + 1⟩, (disk.sourceOf root ⟨shown⟩).text, rfl, ?_, ?_, ?_⟩
  · have whole := (Text.trims_iff _ _).mp (Location.Pieces.ofPlace_trims _
      (diagnostic.range.start.line + 1) (diagnostic.range.start.column + 1) there opens)
    rw [Diagnostic.source] at shows
    rw [Location.read, Range.label, shows, Path.text, Text.shown_bytes,
      Location.Pieces.ofPlace_text, ← whole]
    exact Location.readTrimmed_place _ _ _ there lines columns
  · rw [Order.about, Location.zeroBased, lineBack, columnBack]
  · have text := (Path.isText_same _ _ back).mpr ⟨diagnostic.range.source, rfl⟩
    rwa [Path.mk_text _ text]

/-- A disk with a file whose name holds a colon and a blank character, in the current folder. -/
def colonDisk : Files.Disk where
  top := .entry "p" (.folder (.entry "a:1 b" (.file ByteArray.empty) .empty)) .empty
  current := ["p"]

/-- A diagnostic of the file. -/
def colonDiagnostic : Diagnostic := ⟨.error, "bad", ⟨"/p/a:1 b", ⟨2, 4⟩, ⟨2, 5⟩⟩⟩

/-- The diagnostic is shown at `a:1 b:3:5`, and that asks about its place. -/
theorem colon_name_typed_back :
    ∃ shown location asked, colonDiagnostic.line ⟨"/p"⟩ = shown ++ ": " ++ "error" ++ ": " ++ "bad" ∧
      Location.read shown = .ok location ∧
      Order.about colonDisk ⟨"/p"⟩ location = .tooltip asked 2 4 ∧
      Path.same ⟨asked⟩ ⟨"/p/a:1 b"⟩ = true := by
  have wellFormed : colonDisk.top.WellFormed := by decide
  have own : colonDisk.canonical? ⟨"/p/a:1 b"⟩ = .ok ⟨"/p/a:1 b"⟩ := by
    have leads : colonDisk.placeOf true ⟨"/p/a:1 b"⟩ = .ok ["p", "a:1 b"] := by
      rw [Files.Disk.placeOf, show Files.stepsOf "/p/a:1 b" = [.into "p", .into "a:1 b"] by decide]
      simp +decide [Files.walkSteps, Files.Folder.node?, Files.Folder.get?, colonDisk]
    rw [Files.Disk.canonical?, leads]
    rfl
  have belowHere : Files.BelowHere colonDisk ⟨"/p"⟩ colonDiagnostic.source :=
    ⟨⟨_, rfl⟩, by decide, by decide, ⟨_, own, by decide⟩⟩
  exact colonDiagnostic.shown_place_typed_back colonDisk wellFormed ⟨"/p"⟩ (by decide) (by decide)
    (by decide) (by decide) (Or.inr ⟨belowHere, by decide⟩)

end BuildWatch
