import BuildWatch.Files.Access
import BuildWatch.Hidden
import BuildWatch.Proofs.Text.Border

/-!
# The entries of a folder under their paths

A folder is listed by the path it was asked for, and its entries are then looked up by
that path and their name. Such a lookup takes the way of the folder's own lookup and one
step more, so it finds the entry itself: the folder's path is followed to its end, and of
the links only one at the entry's own name is left to the caller.

This holds of trees whose names can be names. A name is not empty, is no dot or double
dot, holds no slash and no zero, and is short enough; and a folder has one entry of a
name.
-/

namespace BuildWatch

namespace Path

/-- Pieces are cut at a slash, wherever it stands. -/
theorem piecesFrom_append (start : Nat) (piece before after : Bytes) :
    piecesFrom start piece (before ++ slash :: after) =
      piecesFrom start piece before ++
        piecesFrom (start + piece.length + before.length + 1) [] after := by
  induction before generalizing start piece with
  | nil => simp [piecesFrom]
  | cons byte rest inductionHypothesis =>
    by_cases border : byte = slash
    · have cut := inductionHypothesis (start + piece.length + 1) []
      simp only [List.cons_append, piecesFrom, if_pos border, cut, List.length_nil, List.length_cons]
      congr 3
      omega
    · have cut := inductionHypothesis start (byte :: piece)
      simp only [List.cons_append, piecesFrom, if_neg border, cut, List.length_cons]
      congr 2
      omega

/-- Bytes without slashes are one piece. -/
theorem piecesFrom_plain (start : Nat) (piece bytes : Bytes) (plain : slash ∉ bytes) :
    piecesFrom start piece bytes = [(start, piece.reverse ++ bytes)] := by
  induction bytes generalizing piece with
  | nil => simp [piecesFrom]
  | cons byte rest inductionHypothesis =>
    obtain ⟨border, within⟩ : byte ≠ slash ∧ slash ∉ rest := by simpa [eq_comm] using plain
    rw [piecesFrom, if_neg border, inductionHypothesis (byte :: piece) within]
    simp

/-- Where bytes start makes no difference to what their pieces are. -/
theorem piecesFrom_shifted (start other : Nat) (piece bytes : Bytes) :
    (piecesFrom start piece bytes).map Prod.snd = (piecesFrom other piece bytes).map Prod.snd := by
  induction bytes generalizing start other piece with
  | nil => simp [piecesFrom]
  | cons byte rest inductionHypothesis =>
    by_cases border : byte = slash
    · simpa [piecesFrom, border] using inductionHypothesis _ _ []
    · simpa [piecesFrom, border] using inductionHypothesis start other (byte :: piece)

/-- Whether bytes start with a slash is decided by the first of them. -/
theorem isRooted_append (bytes more : Bytes) (nonempty : bytes ≠ []) :
    isRooted (bytes ++ more) = isRooted bytes := by
  rw [isRooted, isRooted, List.head?_append, List.head?_eq_some_head nonempty, Option.some_or]

/-- Bytes without slashes do not start with one. -/
theorem isRooted_plain (bytes : Bytes) (plain : slash ∉ bytes) : isRooted bytes = false := by
  rw [isRooted, beq_eq_false_iff_ne]
  exact fun first => plain (List.mem_of_head? first)

end Path

namespace Files

open BuildWatch.Path (slash dot)

/-- What a name of an entry is. -/
structure IsEntryName (name : Bytes) : Prop where
  nonempty : name ≠ []
  notHere : name ≠ [dot]
  notUp : name ≠ [dot, dot]
  inside : slash ∉ name
  noZero : 0 ∉ name
  short : name.length ≤ nameLimit

instance (name : Bytes) : Decidable (IsEntryName name) :=
  decidable_of_iff (name ≠ [] ∧ name ≠ [dot] ∧ name ≠ [dot, dot] ∧ slash ∉ name ∧ 0 ∉ name ∧
      name.length ≤ nameLimit)
    ⟨fun ⟨nonempty, notHere, notUp, inside, noZero, short⟩ =>
      ⟨nonempty, notHere, notUp, inside, noZero, short⟩,
    fun valid => ⟨valid.nonempty, valid.notHere, valid.notUp, valid.inside, valid.noZero, valid.short⟩⟩

mutual

/-- Whether all names below a node can be names, and each stands once in its folder. -/
def Node.WellFormed : Node → Prop
  | .file _ => True
  | .link _ => True
  | .pipe => True
  | .folder entries => entries.WellFormed

/-- Whether all names in a folder and below can be names, and each stands once in its folder. -/
def Folder.WellFormed : Folder → Prop
  | .empty => True
  | .entry name node rest =>
    IsEntryName name ∧ name ∉ rest.names ∧ node.WellFormed ∧ rest.WellFormed

end

mutual

def Node.decideWellFormed : (node : Node) → Decidable node.WellFormed
  | .file _ => .isTrue trivial
  | .link _ => .isTrue trivial
  | .pipe => .isTrue trivial
  | .folder entries => Folder.decideWellFormed entries

def Folder.decideWellFormed : (entries : Folder) → Decidable entries.WellFormed
  | .empty => .isTrue trivial
  | .entry _ node rest =>
    have := Node.decideWellFormed node
    have := Folder.decideWellFormed rest
    inferInstanceAs (Decidable (_ ∧ _ ∧ _ ∧ _))

end

instance (entries : Folder) : Decidable entries.WellFormed := Folder.decideWellFormed entries

/-- Every entry of a well-formed folder is the one that is found under its name. -/
theorem entry_of_mem (entries : Folder) (wellFormed : entries.WellFormed) (name : Bytes)
    (node : Node) (member : (name, node) ∈ entries.toList) :
    IsEntryName name ∧ entries.get? name = some node ∧ node.WellFormed := by
  induction entries using Folder.toList.induct with
  | case1 => simp [Folder.toList] at member
  | case2 first other rest inductionHypothesis =>
    obtain ⟨valid, fresh, formed, others⟩ := wellFormed
    rw [Folder.toList, List.mem_cons] at member
    rcases member with same | member
    · obtain ⟨rfl, rfl⟩ := Prod.mk.inj same
      exact ⟨valid, by simp [Folder.get?], formed⟩
    · obtain ⟨can, found, good⟩ := inductionHypothesis others member
      have differs : first ≠ name := by
        rintro rfl
        exact fresh (List.mem_map.mpr ⟨_, member, rfl⟩)
      exact ⟨can, by simpa [Folder.get?, differs] using found, good⟩

/-- What is found under a name is an entry. -/
theorem mem_of_get? (entries : Folder) (name : Bytes) (node : Node)
    (found : entries.get? name = some node) : (name, node) ∈ entries.toList := by
  induction entries using Folder.toList.induct with
  | case1 => simp [Folder.get?] at found
  | case2 first other rest inductionHypothesis =>
    rw [Folder.toList, List.mem_cons]
    by_cases same : first = name
    · left
      rw [Folder.get?, if_pos same] at found
      rw [same, Option.some.inj found]
    · right
      rw [Folder.get?, if_neg same] at found
      exact inductionHypothesis found

/-- Whatever stands at a place of a well-formed tree is well-formed. -/
theorem node?_wellFormed (top : Folder) (place : Place) (node : Node) (wellFormed : top.WellFormed)
    (stands : top.node? place = some node) : node.WellFormed := by
  induction place generalizing top with
  | nil =>
    obtain rfl := Option.some.inj stands
    exact wellFormed
  | cons first rest inductionHypothesis =>
    rw [Folder.node?] at stands
    split at stands
    · simp at stands
    · rename_i inner found
      obtain ⟨-, -, formed⟩ := entry_of_mem top wellFormed first _ (mem_of_get? top first _ found)
      exact inductionHypothesis inner formed stands
    · rename_i other found
      obtain ⟨-, -, formed⟩ := entry_of_mem top wellFormed first _ (mem_of_get? top first _ found)
      split at stands
      · exact Option.some.inj stands ▸ formed
      · simp at stands

/-- A name of an entry asks for the step into it. -/
theorem stepOf?_name (name : Bytes) (valid : IsEntryName name) :
    stepOf? name = some (.into name) := by
  rw [stepOf?, if_neg valid.nonempty, if_neg valid.notHere, if_neg valid.notUp]

/-- A piece between slashes means a name, unless it is empty or only dots. -/
theorem pieceSpan?_name (start : Nat) (piece : Bytes)
    (named : piece ∉ [[], [dot], [dot, dot]]) :
    Path.pieceSpan? (start, piece) =
      some ⟨.name (piece), start, start + piece.length⟩ := by
  simp only [List.mem_cons, List.not_mem_nil, or_false, not_or] at named
  obtain ⟨nonempty, notHere, notUp⟩ := named
  rw [Path.pieceSpan?, if_neg nonempty, if_neg notHere, if_neg notUp]

/-- The steps that the pieces of a path ask for. -/
def pieceSteps (bytes : Bytes) : List Step :=
  ((Path.piecesFrom 0 [] bytes).map Prod.snd).filterMap stepOf?

/-- A slash at the end asks for a folder. -/
theorem stepsOf_eq (bytes : Bytes) :
    stepsOf bytes =
      pieceSteps bytes ++ if bytes.getLast? = some slash then [.stay] else [] := by
  simp only [stepsOf, pieceSteps]
  split <;> simp

/-- Steps are cut at a slash, wherever it stands. -/
theorem pieceSteps_append (before after : Bytes) :
    pieceSteps (before ++ slash :: after) = pieceSteps before ++ pieceSteps after := by
  rw [pieceSteps, Path.piecesFrom_append, List.map_append, List.filterMap_append,
    Path.piecesFrom_shifted _ 0 [] after, pieceSteps, pieceSteps]

/-- A name is one step. -/
theorem pieceSteps_name (name : Bytes) (valid : IsEntryName name) :
    pieceSteps name = [.into name] := by
  rw [pieceSteps, Path.piecesFrom_plain _ _ _ valid.inside]
  simp [stepOf?_name name valid]

/-- A slash at the end adds no piece. -/
theorem pieceSteps_slash (before : Bytes) : pieceSteps (before ++ [slash]) = pieceSteps before := by
  rw [pieceSteps_append, show pieceSteps [] = [] by decide, List.append_nil]

/-- A place one name below a folder holds what the folder has under the name. -/
theorem node?_snoc (top folder : Folder) (place : Place) (name : Bytes)
    (stands : top.node? place = some (.folder folder)) :
    top.node? (place ++ [name]) = folder.get? name := by
  induction place generalizing top with
  | nil =>
    obtain rfl : top = folder := by simpa [Folder.node?] using stands
    cases found : top.get? name with
    | none => simp [Folder.node?, found]
    | some node => cases node <;> simp [Folder.node?, found]
  | cons first rest inductionHypothesis =>
    rw [Folder.node?] at stands
    cases found : top.get? first with
    | none => simp [found] at stands
    | some node =>
      cases node with
      | folder inner =>
        simp only [found] at stands
        simp [Folder.node?, found, inductionHypothesis inner stands]
      | file content | link target | pipe =>
        simp only [found] at stands
        split at stands <;> simp at stands

/-- A walk of steps either fails for whatever follows, or goes on with what follows from a
place of its own. What a link at the end does is only left open when nothing follows. -/
theorem walkSteps_append (top : Folder) (links : Nat) (place : Place) (steps : List Step) :
    (∃ fault, ∀ last rest, rest ≠ [] ∨ last = true →
      walkSteps top last links place (steps ++ rest) = .error fault) ∨
    ∃ left spot, ∀ last rest, rest ≠ [] ∨ last = true →
      walkSteps top last links place (steps ++ rest) = walkSteps top last left spot rest := by
  induction links using Nat.strongRecOn generalizing place steps with
  | ind links linksHypothesis =>
    induction steps generalizing place with
    | nil => exact Or.inr ⟨links, place, fun last rest _ => rfl⟩
    | cons step steps stepsHypothesis =>
      cases stands : top.node? place with
      | none => exact Or.inl ⟨.missing, fun last rest _ => by simp [walkSteps, stands]⟩
      | some node =>
        cases node with
        | file content | link target | pipe =>
          exact Or.inl ⟨.notFolder, fun last rest _ => by simp [walkSteps, stands]⟩
        | folder folder =>
          cases step with
          | stay => simpa [walkSteps, stands] using stepsHypothesis place
          | up => simpa [walkSteps, stands] using stepsHypothesis place.dropLast
          | into name =>
            by_cases long : nameLimit < name.length
            · exact Or.inl ⟨.nameTooLong, fun last rest _ => by simp [walkSteps, stands, long]⟩
            · cases found : folder.get? name with
              | none =>
                exact Or.inl ⟨.missing, fun last rest _ => by simp [walkSteps, stands, long, found]⟩
              | some node =>
                cases node with
                | file content | pipe | folder entries =>
                  simpa [walkSteps, stands, long, found] using stepsHypothesis (place ++ [name])
                | link target =>
                  -- What follows is not at its end here, so the link is followed.
                  have follows : ∀ last rest, rest ≠ [] ∨ last = true →
                      ((steps ++ rest).isEmpty && !last) = false := by
                    rintro last rest (more | rfl)
                    · simp [more]
                    · simp
                  by_cases blank : target.isEmpty = true
                  · refine Or.inl ⟨.missing, fun last rest on => ?_⟩
                    simp [walkSteps, stands, long, found, follows last rest on, blank]
                  · cases links with
                    | zero =>
                      refine Or.inl ⟨.tooManyLinks, fun last rest on => ?_⟩
                      simp [walkSteps, stands, long, found, follows last rest on, blank]
                    | succ left =>
                      have onward := linksHypothesis left (Nat.lt_succ_self left)
                        (if Path.isRooted target then [] else place) (stepsOf target ++ steps)
                      rcases onward with ⟨fault, fails⟩ | ⟨less, spot, goes⟩
                      · refine Or.inl ⟨fault, fun last rest on => ?_⟩
                        rw [← fails last rest on]
                        simp [walkSteps, stands, long, found, follows last rest on, blank]
                      · refine Or.inr ⟨less, spot, fun last rest on => ?_⟩
                        rw [← goes last rest on]
                        simp [walkSteps, stands, long, found, follows last rest on, blank]

/-- Steps that lead to a place, or to a place that is asked to be a folder, can be gone on
from there. -/
theorem walkSteps_onward (top : Folder) (links : Nat) (start place : Place) (steps whole : List Step)
    (way : whole = steps ∨ whole = steps ++ [.stay])
    (leads : walkSteps top true links start whole = .ok place) :
    ∃ left, ∀ last rest, rest ≠ [] →
      walkSteps top last links start (steps ++ rest) = walkSteps top last left place rest := by
  rcases walkSteps_append top links start steps with ⟨fault, fails⟩ | ⟨left, spot, goes⟩
  · exfalso
    rcases way with rfl | rfl
    · simpa [leads] using fails true [] (Or.inr rfl)
    · simpa [leads] using fails true [.stay] (Or.inr rfl)
  · have same : spot = place := by
      rcases way with rfl | rfl
      · simpa [leads, walkSteps, eq_comm] using goes true [] (Or.inr rfl)
      · have stays := goes true [.stay] (Or.inr rfl)
        rw [leads, walkSteps] at stays
        split at stays
        · simp at stays
        · simpa [walkSteps, eq_comm] using stays
        · simp at stays
    exact ⟨left, fun last rest more => same ▸ goes last rest (Or.inl more)⟩

/-- The bytes of a folder's path without the slash that may end it. -/
def stem (path : Path) : Bytes :=
  if path.bytes.getLast? = some slash then path.bytes.dropLast else path.bytes

/-- A path is its stem, or ends in one slash more. -/
theorem stem_bytes (path : Path) :
    path.bytes = stem path ++ [slash] ∨
      path.bytes = stem path ∧ path.bytes.getLast? ≠ some slash := by
  by_cases ends : path.bytes.getLast? = some slash
  · obtain ⟨front, cut⟩ := List.getLast?_eq_some_iff.mp ends
    exact Or.inl (by rw [stem, if_pos ends, cut, List.dropLast_concat])
  · exact Or.inr ⟨by rw [stem, if_neg ends], ends⟩

/-- A path read from another one is the stem of that, a slash, and its own bytes. -/
theorem join_bytes (base path : Path) (relative : path.isAbsolute = false)
    (written : base.bytes.isEmpty = false) :
    (base.join path).bytes = stem base ++ slash :: path.bytes := by
  rcases stem_bytes base with ends | ⟨whole, open_⟩
  · simp [Path.join, relative, ends]
  · simp [Path.join, relative, open_, written, whole.symm]

/-- A path read from an absolute one is absolute. -/
theorem join_absolute (base path : Path) (relative : path.isAbsolute = false)
    (written : base.bytes.isEmpty = false) : (base.join path).isAbsolute = base.isAbsolute := by
  have nonempty : base.bytes ≠ [] := by simpa using written
  rw [Path.isAbsolute, Path.isAbsolute, join_bytes base path relative written]
  rcases stem_bytes base with ends | ⟨whole, -⟩
  · rw [← Path.isRooted_append _ path.bytes nonempty, ends, List.append_assoc,
      List.singleton_append]
  · rw [← whole, Path.isRooted_append _ _ nonempty]

/-- The name of an entry is no absolute path. -/
theorem name_relative (name : Bytes) (valid : IsEntryName name) : Path.isAbsolute ⟨name⟩ = false :=
  Path.isRooted_plain name valid.inside

/-- The path of an entry is the stem of its folder's path, a slash, and its name. -/
theorem child_bytes (path : Path) (name : Bytes) (valid : IsEntryName name)
    (written : path.bytes.isEmpty = false) :
    (path.child name).bytes = stem path ++ slash :: name :=
  join_bytes path ⟨name⟩ (name_relative name valid) written

/-- The path of an entry does not end in a slash. -/
theorem stem_child (path : Path) (name : Bytes) (valid : IsEntryName name)
    (written : path.bytes.isEmpty = false) :
    stem (path.child name) = (path.child name).bytes := by
  rw [stem, if_neg]
  intro ends
  rw [child_bytes path name valid written, List.getLast?_append, List.getLast?_cons, Option.some_or,
    Option.some_inj] at ends
  rw [List.getLast?_eq_some_getLast valid.nonempty, Option.getD_some] at ends
  exact valid.inside (ends ▸ List.getLast_mem valid.nonempty)

/-- The path of an entry is not empty. -/
theorem child_written (path : Path) (name : Bytes) (valid : IsEntryName name)
    (written : path.bytes.isEmpty = false) : (path.child name).bytes.isEmpty = false := by
  have child := child_bytes path name valid written
  rw [Bool.eq_false_iff, ne_eq, List.isEmpty_iff]
  intro empty
  simp [empty] at child

/-- A name that is read from any path is the name of the file. -/
theorem fileName?_child (path : Path) (name : Bytes)
    (named : name ∉ [[], [dot], [dot, dot]]) (inside : slash ∉ name) :
    (path.child name).fileName? = some name := by
  have relative : Path.isAbsolute ⟨name⟩ = false := Path.isRooted_plain name inside
  have last : (path.child name).components.getLast? = some (.name name) := by
    rw [Path.components, Path.spans, Path.child]
    by_cases written : path.bytes.isEmpty = true
    · have whole : (path.join ⟨name⟩).bytes = name := by
        simp [Path.join, relative, List.isEmpty_iff.mp written]
      have unrooted : Path.isRooted name = false := relative
      rw [whole, Path.spansOf, Path.piecesFrom_plain _ _ _ inside, unrooted]
      simp [pieceSpan?_name _ _ named]
    · rw [join_bytes path ⟨name⟩ relative (by simpa using written), Path.spansOf,
        Path.piecesFrom_append, Path.piecesFrom_plain _ _ _ inside]
      split <;> simp [pieceSpan?_name _ _ named, List.filterMap_append, List.getLast?_cons]
  rw [Path.fileName?, last]

/-- A name is hidden when it is a text and starts with a dot. -/
theorem isHiddenName_iff (name : Bytes) :
    isHiddenName name = true ↔ Text.IsText name ∧ name.head? = some dot := by
  rw [isHiddenName]
  cases read : Text.ofBytes? name with
  | none =>
    have broken : ¬ Text.IsText name := by
      rintro ⟨text, rfl⟩
      simp at read
    simp [broken]
  | some text =>
    obtain rfl := (Text.ofBytes?_eq_some_iff name text).mp read
    have dotted : (Text.bytes text).head? = some dot ↔ text.toList.head? = some '.' :=
      Text.head?_bytes_iff (by decide) (by decide) text
    rw [dotted, beq_iff_eq]
    exact (and_iff_right ⟨text, rfl⟩).symm

/-- An entry is hidden when its name is. -/
theorem isHidden_child (path : Path) (name : Bytes) (valid : IsEntryName name) :
    (path.child name).isHidden = isHiddenName name := by
  have named : name ∉ [[], [dot], [dot, dot]] := by
    simp [valid.nonempty, valid.notHere, valid.notUp]
  rw [Path.isHidden, fileName?_child path name named valid.inside]

/-- The lookup of an entry goes the way of its folder and one step more. -/
theorem stepsOf_child (path : Path) (name : Bytes) (valid : IsEntryName name)
    (written : path.bytes.isEmpty = false) :
    ∃ steps, stepsOf (path.child name).bytes = steps ++ [.into name] ∧
      (stepsOf path.bytes = steps ∨ stepsOf path.bytes = steps ++ [.stay]) := by
  refine ⟨pieceSteps (stem path), ?_, ?_⟩
  · rcases stem_bytes (path.child name) with ends | ⟨-, open_⟩
    · simp [stem_child path name valid written] at ends
    · rw [stepsOf_eq, if_neg open_, child_bytes path name valid written, pieceSteps_append,
        pieceSteps_name name valid, List.append_nil]
  · rcases stem_bytes path with base | ⟨base, open_⟩
    · right
      rw [stepsOf_eq, base, pieceSteps_slash]
      simp
    · left
      rw [stepsOf_eq, if_neg open_, base, List.append_nil]

/-- The lookup of an entry starts where that of its folder starts. -/
theorem placeOf_child (disk : Disk) (last : Bool) (path : Path) (name : Bytes)
    (valid : IsEntryName name) (written : path.bytes.isEmpty = false)
    (clean : 0 ∉ path.bytes) :
    disk.placeOf last (path.child name) =
      walkSteps disk.top last linkLimit (if path.isAbsolute then [] else disk.current)
        (stepsOf (path.child name).bytes) := by
  have child := child_bytes path name valid written
  have absolute : (path.child name).isAbsolute = path.isAbsolute :=
    join_absolute path ⟨name⟩ (name_relative name valid) written
  have zero : 0 ∉ (path.child name).bytes := by
    have before : 0 ∉ stem path := by
      rcases stem_bytes path with base | ⟨base, -⟩
      · exact fun within => clean (by simp [base, within])
      · exact base ▸ clean
    rw [child, List.mem_append, List.mem_cons]
    rintro (within | same | within)
    · exact before within
    · exact absurd same (by decide)
    · exact valid.noZero within
  rw [Disk.placeOf, child_written path name valid written, absolute]
  simp [zero]

/-- A lookup that finds something has a path to go. -/
theorem placeOf_ok (disk : Disk) (last : Bool) (path : Path) (place : Place)
    (found : disk.placeOf last path = .ok place) :
    path.bytes.isEmpty = false ∧ 0 ∉ path.bytes ∧
      walkSteps disk.top last linkLimit (if path.isAbsolute then [] else disk.current)
        (stepsOf path.bytes) = .ok place := by
  rw [Disk.placeOf] at found
  split at found
  · simp at found
  · split at found
    · simp at found
    · exact ⟨by simp_all, by simp_all, found⟩

/-- What a path stands for stands at the place it leads to. -/
theorem nodeOf_ok (disk : Disk) (last : Bool) (path : Path) (node : Node)
    (found : disk.nodeOf last path = .ok node) :
    ∃ place, disk.placeOf last path = .ok place ∧ disk.top.node? place = some node := by
  rw [Disk.nodeOf] at found
  split at found
  · simp at found
  · rename_i place leads
    split at found
    · rename_i other stands
      obtain rfl : other = node := by simpa using found
      exact ⟨place, leads, stands⟩
    · simp at found

/-- A path that leads to a place where something stands stands for that. -/
theorem nodeOf_eq (disk : Disk) (last : Bool) (path : Path) (place : Place) (node : Node)
    (leads : disk.placeOf last path = .ok place) (stands : disk.top.node? place = some node) :
    disk.nodeOf last path = .ok node := by
  rw [Disk.nodeOf, leads]
  simp [stands]

/-- The path of an entry leads one name below the place of its folder. -/
theorem placeOf_entry (disk : Disk) (path : Path) (place : Place) (entries : Folder) (name : Bytes)
    (node : Node) (leads : disk.placeOf true path = .ok place)
    (stands : disk.top.node? place = some (.folder entries)) (valid : IsEntryName name)
    (found : entries.get? name = some node) :
    disk.placeOf false (path.child name) = .ok (place ++ [name]) := by
  obtain ⟨written, clean, walked⟩ := placeOf_ok disk true path place leads
  obtain ⟨steps, child, base⟩ := stepsOf_child path name valid written
  obtain ⟨left, onward⟩ := walkSteps_onward disk.top linkLimit _ place steps _ base walked
  rw [placeOf_child disk false path name valid written clean, child, onward false _ (by simp)]
  have short : ¬ nameLimit < name.length := Nat.not_lt.mpr valid.short
  cases node <;> simp [walkSteps, stands, found, short]

/-- An entry of a folder is found under the folder's path and its own name. -/
theorem nodeOf_child (disk : Disk) (path : Path) (entries : Folder) (name : Bytes) (node : Node)
    (folder : disk.nodeOf true path = .ok (.folder entries)) (valid : IsEntryName name)
    (found : entries.get? name = some node) : disk.nodeOf false (path.child name) = .ok node := by
  obtain ⟨place, leads, stands⟩ := nodeOf_ok disk true path _ folder
  refine nodeOf_eq disk false _ _ node
    (placeOf_entry disk path place entries name node leads stands valid found) ?_
  rw [node?_snoc disk.top entries place name stands, found]

/-- Steps that lead to something other than a link lead there also when a link at their end
is followed. -/
theorem walkSteps_follow (top : Folder) (links : Nat) (start place : Place) (steps : List Step)
    (node : Node) (leads : walkSteps top false links start steps = .ok place)
    (stands : top.node? place = some node) (plain : ∀ target, node ≠ .link target) :
    walkSteps top true links start steps = .ok place := by
  fun_induction walkSteps top false links start steps
  -- A link at the end that is not followed stands there itself.
  case case7 links above rest folder inside name short target entry atEnd =>
    obtain rfl := Except.ok.inj leads
    rw [node?_snoc top folder above name inside, entry] at stands
    exact absurd (Option.some.inj stands).symm (plain target)
  all_goals simp_all [walkSteps]

/-- A path that leads to something other than a link leads there also when a link at its end
is followed. -/
theorem placeOf_follow (disk : Disk) (path : Path) (place : Place) (node : Node)
    (leads : disk.placeOf false path = .ok place) (stands : disk.top.node? place = some node)
    (plain : ∀ target, node ≠ .link target) : disk.placeOf true path = .ok place := by
  obtain ⟨written, clean, walked⟩ := placeOf_ok disk false path place leads
  rw [Disk.placeOf]
  simp [written, clean, walkSteps_follow disk.top linkLimit _ place _ node walked stands plain]

/-- What a path stands for, if it is no link, it stands for also when a link at its end is
followed. -/
theorem nodeOf_follow (disk : Disk) (path : Path) (node : Node)
    (found : disk.nodeOf false path = .ok node) (plain : ∀ target, node ≠ .link target) :
    disk.nodeOf true path = .ok node := by
  obtain ⟨place, leads, stands⟩ := nodeOf_ok disk false path node found
  exact nodeOf_eq disk true path place node (placeOf_follow disk path place node leads stands plain)
    stands

end Files
end BuildWatch
