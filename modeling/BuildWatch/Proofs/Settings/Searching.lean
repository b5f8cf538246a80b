import BuildWatch.Proofs.Path.Above

/-!
# Which settings file is the nearest

A search for a relative name looks under the name in a folder, then in the folder above it, and so
on, until something is there or nothing is left above. Each step up takes a component away, so the
search ends and no folder comes twice, whatever the disk says. It comes to the first thing that is
there, and to nothing only when it has looked in all folders up to the top.

A folder need not exist to be looked in, and a name may lead out of it again: all that counts is
whether the joined path leads to anything.
-/

namespace BuildWatch.Settings

open Files (Disk)

/-- A search for a relative name from a folder upwards: the folders that it looks in, one after the
other, and the path that it comes to, if any. -/
inductive Search (disk : Disk) (name : Path) : Path → List Path → Option Path → Prop
  | found (folder : Path) (there : disk.has (folder.join name) = true) :
      Search disk name folder [folder] (some (folder.join name))
  | exhausted (folder : Path) (missing : disk.has (folder.join name) = false)
      (top : folder.parent? = none) : Search disk name folder [folder] none
  | upward (folder above : Path) (visited : List Path) (result : Option Path)
      (missing : disk.has (folder.join name) = false) (up : folder.parent? = some above)
      (further : Search disk name above visited result) :
      Search disk name folder (folder :: visited) result

variable (disk : Disk) (name : Path)

/-- What is looked for is looked for in the folder first, and then from the folder above it. -/
theorem find?_eq (start : Path) (relative : name.isAbsolute = false) :
    find? disk start name =
      if disk.has (start.join name) then some (start.join name)
      else start.parent?.bind fun above => find? disk above name := by
  have searched (folder : Path) :
      find? disk folder name = (folder.ancestors.map (·.join name)).find? disk.has := by
    rw [find?, relative, if_neg Bool.false_ne_true]
  rw [searched start, Path.ancestors_eq, List.map_cons, List.find?_cons]
  cases disk.has (start.join name) with
  | true => rfl
  | false =>
    cases start.parent? with
    | none => rfl
    | some above => exact (searched above).symm

/-- The search from a folder comes to what is found. It is an induction on the components, since
each folder above another one has one less. -/
theorem search_find? (relative : name.isAbsolute = false) (start : Path) :
    ∃ visited, Search disk name start visited (find? disk start name) := by
  induction length : start.components.length using Nat.strongRecOn generalizing start with
  | ind size inductionHypothesis =>
    rw [find?_eq disk name start relative]
    cases there : disk.has (start.join name) with
    | true => exact ⟨_, Search.found start there⟩
    | false =>
      cases up : start.parent? with
      | none => exact ⟨_, Search.exhausted start there up⟩
      | some above =>
        obtain ⟨last, -, whole⟩ := Path.parent?_components start above up
        have shorter : above.components.length < size := by
          rw [← length, whole, List.length_append]
          exact Nat.lt_succ_self _
        obtain ⟨visited, further⟩ := inductionHypothesis _ shorter above rfl
        exact ⟨_, Search.upward start above visited _ there up further⟩

/-- A search can go on in one way only. -/
theorem Search.unique {disk : Disk} {name start : Path} {visited others : List Path}
    {result other : Option Path} (search : Search disk name start visited result)
    (again : Search disk name start others other) : others = visited ∧ other = result := by
  induction search generalizing others other with
  | found folder there => cases again <;> simp_all
  | exhausted folder missing top => cases again <;> simp_all
  | upward folder above visited result missing up further inductionHypothesis =>
    cases again with
    | found _ there => simp [missing] at there
    | exhausted _ _ top => simp [up] at top
    | upward _ parent rest _ _ parentUp onward =>
      obtain rfl : parent = above := Option.some.inj (parentUp.symm.trans up)
      obtain ⟨rfl, rfl⟩ := inductionHypothesis onward
      exact ⟨rfl, rfl⟩

/-- A search looks in a folder and those above it, as far as it has to. -/
theorem Search.visited_prefix {disk : Disk} {name start : Path} {visited : List Path}
    {result : Option Path} (search : Search disk name start visited result) :
    visited <+: start.ancestors := by
  induction search with
  | found folder there => simp [Path.ancestors_eq folder]
  | exhausted folder missing top => simp [Path.ancestors_eq folder]
  | upward folder above visited result missing up further inductionHypothesis =>
    rw [Path.ancestors_eq folder, up, List.prefix_cons_inj]
    exact inductionHypothesis

/-- Something is found when it is there, and nothing is there in the nearer folders. -/
theorem find?_eq_some_iff (start path : Path) (relative : name.isAbsolute = false) :
    find? disk start name = some path ↔
      ∃ steps folder, start.above? steps = some folder ∧ path = folder.join name ∧
        disk.has path = true ∧
        ∀ nearer < steps, ∀ other, start.above? nearer = some other →
          disk.has (other.join name) = false := by
  have joined (steps : Nat) : (start.ancestors.map (·.join name))[steps]? =
      (start.above? steps).map (·.join name) := by
    rw [List.getElem?_map, Path.ancestors_getElem?]
  rw [find?, relative, if_neg Bool.false_ne_true, List.find?_eq_some_iff_getElem]
  constructor
  · rintro ⟨there, steps, inside, same, missing⟩
    obtain ⟨folder, up, rfl⟩ : ∃ folder, start.above? steps = some folder ∧ folder.join name = path := by
      rw [← Option.map_eq_some_iff, ← joined, List.getElem?_eq_getElem inside, same]
    refine ⟨steps, folder, up, rfl, there, fun nearer less other leads => ?_⟩
    have place := joined nearer
    rw [leads, List.getElem?_eq_getElem (Nat.lt_trans less inside)] at place
    simpa [Option.some.inj place] using missing nearer less
  · rintro ⟨steps, folder, up, rfl, there, missing⟩
    have place := joined steps
    rw [up, Option.map_some, List.getElem?_eq_some_iff] at place
    obtain ⟨inside, same⟩ := place
    refine ⟨there, steps, inside, same, fun nearer less => ?_⟩
    have before := joined nearer
    rw [List.getElem?_eq_getElem (Nat.lt_trans less inside), eq_comm, Option.map_eq_some_iff] at before
    obtain ⟨other, leads, join⟩ := before
    simp [← join, missing nearer less other leads]

/-- Nothing is found when nothing is there in the folder or any above it. -/
theorem find?_eq_none_iff (start : Path) (relative : name.isAbsolute = false) :
    find? disk start name = none ↔
      ∀ steps folder, start.above? steps = some folder → disk.has (folder.join name) = false := by
  rw [find?, relative, if_neg Bool.false_ne_true, List.find?_eq_none, List.forall_mem_map]
  simp only [List.mem_iff_getElem?, Path.ancestors_getElem?, Bool.not_eq_true]
  constructor
  · intro missing steps folder up
    exact missing folder ⟨steps, up⟩
  · rintro missing folder ⟨steps, up⟩
    exact missing steps folder up

/-- **The nearest settings file is found.** A name that is an absolute path is found when something
is there, wherever the search starts.

For another name the path that is found is the name joined to a folder so many steps above the
start, where something is there, and nothing is there in the folders that are fewer steps above.
Nothing is found exactly when nothing is there in any of them. The search takes one course, which
ends with what is found; it goes one step up at a time, and no folder comes twice in it, in
whatever spellings.

From an absolute path the steps lead through what its components open, down to the root alone, so
the search looks in no more folders than there are components.

Proof: each step up takes one component from the end, and never the root. -/
theorem nearest_settings_found (start : Path) :
    (name.isAbsolute = true → find? disk start name = if disk.has name then some name else none) ∧
    (name.isAbsolute = false →
      (∀ path, find? disk start name = some path ↔
        ∃ steps folder, start.above? steps = some folder ∧ path = folder.join name ∧
          disk.has path = true ∧
          ∀ nearer < steps, ∀ other, start.above? nearer = some other →
            disk.has (other.join name) = false) ∧
      (find? disk start name = none ↔
        ∀ steps folder, start.above? steps = some folder → disk.has (folder.join name) = false) ∧
      ∃ visited,
        (∀ others result, Search disk name start others result ↔
          others = visited ∧ result = find? disk start name) ∧
        (∀ steps < visited.length, visited[steps]? = start.above? steps) ∧
        (visited.map Path.components).Nodup ∧
        (start.isAbsolute = true → visited.length ≤ start.components.length)) ∧
    (start.isAbsolute = true → ∀ steps,
      (start.above? steps).map Path.components =
        if steps < start.components.length then
          some (start.components.take (start.components.length - steps))
        else none) := by
  refine ⟨fun absolute => by rw [find?, if_pos absolute], fun relative => ?_,
    fun absolute => Path.above?_absolute start absolute⟩
  obtain ⟨visited, search⟩ := search_find? disk name relative start
  have upward := search.visited_prefix
  have places : ∀ steps < visited.length, visited[steps]? = start.above? steps := by
    intro steps inside
    rw [← Path.ancestors_getElem?, List.getElem?_eq_getElem inside, upward.getElem inside,
      List.getElem?_eq_getElem]
  refine ⟨fun path => find?_eq_some_iff disk name start path relative,
    find?_eq_none_iff disk name start relative, visited, fun others result => ⟨search.unique, ?_⟩,
    places, start.ancestors_distinct.sublist (upward.sublist.map _), fun absolute => ?_⟩
  · rintro ⟨rfl, rfl⟩
    exact search
  · by_contra more
    have last := places start.components.length (by omega)
    have none := Path.above?_absolute start absolute start.components.length
    rw [if_neg (Nat.lt_irrefl _), Option.map_eq_none_iff, ← last, List.getElem?_eq_none_iff] at none
    omega

end BuildWatch.Settings
