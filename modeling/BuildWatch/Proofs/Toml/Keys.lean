import BuildWatch.Toml.Fault
import Mathlib.Data.List.Nodup

/-!
# No key stands twice

A file is refused when it gives a key a second value in the same table. So the tables that are read
have distinct keys, and the tables within them too, whether they were written between braces or
came about line by line. Values in lists are left out of this.
-/

namespace BuildWatch.Toml

/-- The tables that a value is made of, when it is one table or rows of them. -/
def Value.tables : Value → List Entries
  | .table _ entries => [entries]
  | .rows tables => tables
  | _ => []

/-- No key stands twice in a table or in the tables within it. -/
inductive Distinct : Entries → Prop
  | intro {entries : Entries} (keys : (entries.map Prod.fst).Nodup)
      (within : ∀ entry ∈ entries, ∀ table ∈ entry.2.tables, Distinct table) : Distinct entries

/-- No key stands twice in the tables that a value is made of. -/
def Value.Proper (value : Value) : Prop := ∀ table ∈ value.tables, Distinct table

theorem Distinct.keys {entries : Entries} (distinct : Distinct entries) :
    (entries.map Prod.fst).Nodup := by
  cases distinct
  assumption

theorem Distinct.proper {entries : Entries} (distinct : Distinct entries) :
    ∀ entry ∈ entries, entry.2.Proper := by
  cases distinct
  assumption

theorem distinct_nil : Distinct [] := .intro (by simp) (by simp)

theorem proper_table (origin : Origin) {entries : Entries} (distinct : Distinct entries) :
    (Value.table origin entries).Proper := by
  intro table member
  rw [List.mem_singleton.mp member]
  exact distinct

/-- The value under a key is that of an entry. -/
theorem proper_of_lookup {entries : Entries} (distinct : Distinct entries) (key : String)
    (value : Value) (found : entries.lookup key = some value) : value.Proper := by
  obtain ⟨before, after, rfl, -⟩ := List.lookup_eq_some_iff.mp found
  exact distinct.proper (key, value) (by simp)

/-- The last of some rows, or an empty table. -/
theorem distinct_last {tables : List Entries} (proper : (Value.rows tables).Proper) :
    Distinct (tables.getLast?.getD []) := by
  cases last : tables.getLast? with
  | none => exact distinct_nil
  | some table => exact proper table (List.mem_of_getLast? last)

theorem proper_rows_snoc {tables : List Entries} (proper : (Value.rows tables).Proper)
    {last : Entries} (distinct : Distinct last) : (Value.rows (tables ++ [last])).Proper := by
  intro table member
  rcases List.mem_append.mp member with before | same
  · exact proper table before
  · rw [List.mem_singleton.mp same]
    exact distinct

theorem proper_rows_dropLast {tables : List Entries} (proper : (Value.rows tables).Proper) :
    (Value.rows tables.dropLast).Proper :=
  fun table member => proper table ((List.dropLast_sublist tables).subset member)

namespace Entries

variable {entries after : Entries} {key : String} {value : Value}

/-- A value under a key that is not there yet. -/
theorem distinct_snoc (distinct : Distinct entries) (fresh : entries.lookup key = none)
    (proper : value.Proper) : Distinct (entries ++ [(key, value)]) := by
  refine .intro ?_ ?_
  · rw [List.map_append, List.map_singleton, List.nodup_append]
    refine ⟨distinct.keys, by simp, ?_⟩
    rintro other member same last rfl
    obtain rfl : other = key := by simpa using last
    obtain ⟨entry, within, same⟩ := List.mem_map.mp member
    have apart := List.lookup_eq_none_iff.mp fresh entry within
    simp [same] at apart
  · intro entry member
    rcases List.mem_append.mp member with before | same
    · exact distinct.proper entry before
    · rw [List.mem_singleton.mp same]
      exact proper

theorem replace_keys (key : String) (value : Value) (entries : Entries) :
    (entries.replace key value).map Prod.fst = entries.map Prod.fst := by
  induction entries with
  | nil => rfl
  | cons entry rest inductionHypothesis =>
    obtain ⟨other, old⟩ := entry
    rw [replace]
    split_ifs with same
    · simp [same]
    · rw [List.map_cons, List.map_cons, inductionHypothesis]

theorem mem_replace (key : String) (value : Value) (entries : Entries) (entry : String × Value)
    (member : entry ∈ entries.replace key value) : entry = (key, value) ∨ entry ∈ entries := by
  induction entries with
  | nil => simp [replace] at member
  | cons first rest inductionHypothesis =>
    obtain ⟨other, old⟩ := first
    rw [replace] at member
    split_ifs at member with same
    · rcases List.mem_cons.mp member with here | later
      · exact Or.inl here
      · exact Or.inr (List.mem_cons_of_mem _ later)
    · rcases List.mem_cons.mp member with here | later
      · exact Or.inr (here ▸ List.mem_cons_self)
      · exact (inductionHypothesis later).imp_right (List.mem_cons_of_mem _)

/-- Another value under a key that is there. -/
theorem distinct_replace (distinct : Distinct entries) (proper : value.Proper) :
    Distinct (entries.replace key value) := by
  refine .intro (by rw [replace_keys]; exact distinct.keys) fun entry member => ?_
  rcases mem_replace key value entries entry member with rfl | before
  · exact proper
  · exact distinct.proper entry before

theorem distinct_erase (distinct : Distinct entries) : Distinct (entries.erase key) :=
  .intro (distinct.keys.sublist (List.filter_sublist.map _)) fun entry member =>
    distinct.proper entry (List.mem_of_mem_filter member)

theorem lookup_erase : (entries.erase key).lookup key = none := by
  refine List.lookup_eq_none_iff.mpr fun entry member => ?_
  have apart := (List.mem_filter.mp member).2
  simp at apart ⊢
  exact fun same => apart same.symm

/-- The last of some rows with other entries. -/
theorem distinct_replace_last (distinct : Distinct entries) (tables : List Entries)
    (found : entries.lookup key = some (.rows tables)) {inner : Entries} (within : Distinct inner) :
    Distinct (entries.replace key (.rows (tables.dropLast ++ [inner]))) :=
  distinct_replace distinct
    (proper_rows_snoc (proper_rows_dropLast (proper_of_lookup distinct key _ found)) within)

/-- A value under a dotted key. -/
theorem add_distinct (path : List String) (proper : value.Proper) (distinct : Distinct entries)
    (added : add value path entries = some after) : Distinct after := by
  fun_induction add value path entries generalizing after with
  | case3 key entries free =>
    obtain rfl := Option.some.inj added
    exact distinct_snoc distinct (Option.not_isSome_iff_eq_none.mp free) proper
  | case4 key rest entries _ free inductionHypothesis =>
    obtain ⟨inner, put, rfl⟩ := Option.map_eq_some_iff.mp added
    exact distinct_snoc distinct free (proper_table _ (inductionHypothesis distinct_nil put))
  | case5 key rest entries _ inner found inductionHypothesis
  | case7 key rest entries _ inner found _ inductionHypothesis =>
    obtain ⟨changed, put, rfl⟩ := Option.map_eq_some_iff.mp added
    have within := proper_of_lookup distinct key _ found inner (List.mem_singleton_self _)
    exact distinct_replace distinct (proper_table _ (inductionHypothesis within put))
  | case9 key rest entries _ tables found _ inductionHypothesis =>
    obtain ⟨changed, put, rfl⟩ := Option.map_eq_some_iff.mp added
    have last := distinct_last (proper_of_lookup distinct key _ found)
    exact distinct_replace_last distinct tables found (inductionHypothesis last put)
  | case1 | case2 | case6 | case8 | case10 => simp at added

/-- Steps over some items of which each keeps the keys distinct. -/
theorem foldlM_distinct {ι : Type} (step : Entries → ι → Option Entries) (items : List ι)
    (keeps : ∀ item ∈ items, ∀ before next, Distinct before → step before item = some next →
      Distinct next)
    (distinct : Distinct entries) (done : items.foldlM step entries = some after) :
    Distinct after := by
  induction items generalizing entries with
  | nil => exact Option.some.inj done ▸ distinct
  | cons item rest inductionHypothesis =>
    obtain ⟨first, others⟩ := List.forall_mem_cons.mp keeps
    rw [List.foldlM_cons, Option.bind_eq_bind, Option.bind_eq_some_iff] at done
    obtain ⟨next, own, done⟩ := done
    exact inductionHypothesis others (first _ _ distinct own) done

/-- Values under their keys, one after the other. -/
theorem fill_distinct (lines : List (List String × Value)) (proper : ∀ line ∈ lines, line.2.Proper)
    (distinct : Distinct entries) (filled : fill lines entries = some after) : Distinct after :=
  foldlM_distinct _ lines (fun line member _ _ formed added =>
    add_distinct line.1 (proper line member) formed added) distinct filled

/-- A change at the end of a header's steps. -/
theorem below_distinct (change : Entries → Option Entries)
    (keeps : ∀ around next, Distinct around → change around = some next → Distinct next)
    (steps : List String) (distinct : Distinct entries)
    (changed : below change steps entries = some after) : Distinct after := by
  fun_induction below change steps entries generalizing after with
  | case1 entries => exact keeps entries after distinct changed
  | case2 key rest entries free inductionHypothesis =>
    obtain ⟨inner, put, rfl⟩ := Option.map_eq_some_iff.mp changed
    exact distinct_snoc distinct free (proper_table _ (inductionHypothesis distinct_nil put))
  | case4 key rest entries origin inner _ found inductionHypothesis =>
    obtain ⟨next, put, rfl⟩ := Option.map_eq_some_iff.mp changed
    have within := proper_of_lookup distinct key _ found inner (List.mem_singleton_self _)
    exact distinct_replace distinct (proper_table _ (inductionHypothesis within put))
  | case5 key rest entries tables found inductionHypothesis =>
    obtain ⟨next, put, rfl⟩ := Option.map_eq_some_iff.mp changed
    have last := distinct_last (proper_of_lookup distinct key _ found)
    exact distinct_replace_last distinct tables found (inductionHypothesis last put)
  | case3 | case6 => simp at changed

/-- A header and the values that follow it. -/
theorem addSection_distinct (header : Line) (lines : List (List String × Value))
    (proper : ∀ line ∈ lines, line.2.Proper) (distinct : Distinct entries)
    (added : entries.addSection (header, lines) = some after) : Distinct after := by
  have filled {start inner : Entries} (distinct : Distinct start)
      (put : fill lines start = some inner) : Distinct inner :=
    fill_distinct lines proper distinct put
  cases header with
  | table steps key =>
    refine below_distinct _ (fun around next formed changed => ?_) steps distinct added
    split at changed
    · rename_i free
      obtain ⟨inner, put, rfl⟩ := Option.map_eq_some_iff.mp changed
      exact distinct_snoc formed free (proper_table _ (filled distinct_nil put))
    · rename_i taken found
      obtain ⟨inner, put, rfl⟩ := Option.map_eq_some_iff.mp changed
      have within := proper_of_lookup formed key _ found taken (List.mem_singleton_self _)
      exact distinct_snoc (distinct_erase formed) lookup_erase (proper_table _ (filled within put))
    · simp at changed
  | row steps key =>
    refine below_distinct _ (fun around next formed changed => ?_) steps distinct added
    split at changed
    · rename_i free
      obtain ⟨inner, put, rfl⟩ := Option.map_eq_some_iff.mp changed
      exact distinct_snoc formed free
        (proper_rows_snoc (show (Value.rows []).Proper by simp [Value.Proper, Value.tables])
          (filled distinct_nil put))
    · rename_i tables found
      obtain ⟨inner, put, rfl⟩ := Option.map_eq_some_iff.mp changed
      exact distinct_replace formed
        (proper_rows_snoc (proper_of_lookup formed key _ found) (filled distinct_nil put))
    · simp at changed
  | entry path value => simp [addSection] at added

/-- The values that lines give under their keys. -/
def valuesOf (lines : List Line) : List Value :=
  lines.filterMap fun
    | .entry _ value => some value
    | _ => none

/-- Sorting lines under their headers keeps the values. -/
theorem tail_proper (lines : List Line) (proper : ∀ value ∈ valuesOf lines, value.Proper) :
    (∀ line ∈ (lines.foldr Tail.push ⟨[], []⟩).own, line.2.Proper) ∧
      ∀ part ∈ (lines.foldr Tail.push ⟨[], []⟩).sections, ∀ line ∈ part.2, line.2.Proper := by
  induction lines with
  | nil => simp
  | cons line rest inductionHypothesis =>
    rw [List.foldr_cons]
    cases line with
    | entry path value =>
      obtain ⟨own, others⟩ := List.forall_mem_cons.mp proper
      obtain ⟨top, sections⟩ := inductionHypothesis others
      exact ⟨List.forall_mem_cons.mpr ⟨own, top⟩, sections⟩
    | table steps key | row steps key =>
      obtain ⟨top, sections⟩ := inductionHypothesis proper
      exact ⟨by simp [Tail.push], List.forall_mem_cons.mpr ⟨top, sections⟩⟩

/-- The table that the lines of a whole file make. -/
theorem ofLines_distinct (lines : List Line) (proper : ∀ value ∈ valuesOf lines, value.Proper)
    (made : ofLines lines = some entries) : Distinct entries := by
  obtain ⟨own, sections⟩ := tail_proper lines proper
  simp only [ofLines] at made
  split at made
  · simp at made
  · rename_i top filled
    exact foldlM_distinct _ _ (fun part member _ _ formed added =>
      addSection_distinct part.1 part.2 (sections part member) formed added)
      (fill_distinct _ own distinct_nil filled) made

end Entries

/-- What a scanner reads has distinct keys. -/
def ProperScanner (scanner : Scanner Value) : Prop :=
  ∀ text value rest, scanner text = some (value, rest) → value.Proper

/-- A value that is no table has no keys. -/
theorem proper_plain (value : Value) (plain : value.tables = []) : value.Proper := by
  simp [Value.Proper, plain]

section Plain

variable {text : List Char} {value : Value}

theorem fitting?_plain {number : Int} (read : fitting? number = some value) : value.tables = [] := by
  rw [fitting?] at read
  split_ifs at read
  exact Option.some.inj read ▸ rfl

theorem integer?_plain (read : integer? text = some value) : value.tables = [] := by
  unfold integer? at read
  split at read
  all_goals
    simp only [based?, Option.bind_eq_some_iff] at read
    obtain ⟨digits, -, fits⟩ := read
    exact fitting?_plain fits

theorem decimal?_plain (read : decimal? text = some value) : value.tables = [] := by
  simp only [decimal?, Option.bind_eq_some_iff] at read
  obtain ⟨whole, -, read⟩ := read
  -- With and without a fraction the digits make one value, unless they are out of bounds.
  split at read
  · simp at read
  · simp only [Option.bind_eq_some_iff] at read
    obtain ⟨fraction, -, exponent, -, read⟩ := read
    split_ifs at read
    exact Option.some.inj read ▸ rfl
  · simp only [Option.bind_eq_some_iff] at read
    obtain ⟨exponent, -, read⟩ := read
    split_ifs at read
    exact Option.some.inj read ▸ rfl

theorem moment?_plain (read : moment? text = some value) : value.tables = [] := by
  simp only [moment?] at read
  split_ifs at read
  exact Option.some.inj read ▸ rfl

theorem word?_plain (read : word? text = some value) : value.tables = [] := by
  rw [word?] at read
  split_ifs at read <;> exact Option.some.inj read ▸ rfl

theorem ofWord?_plain (read : ofWord? text = some value) : value.tables = [] := by
  rw [ofWord?] at read
  simp only [Option.or_eq_some_iff] at read
  rcases read with word | ⟨-, moment | ⟨-, decimal | ⟨-, integer⟩⟩⟩
  · exact word?_plain word
  · exact moment?_plain moment
  · exact decimal?_plain decimal
  · exact integer?_plain integer

/-- A value without quotes or brackets is no table. -/
theorem scalar_proper : ProperScanner scalar := by
  intro text value rest read
  refine proper_plain value ?_
  have alone {word rest' : List Char}
      (read : (ofWord? word).map (fun value => (value, rest')) = some (value, rest)) :
      value.tables = [] := by
    obtain ⟨other, word, same⟩ := Option.map_eq_some_iff.mp read
    obtain ⟨rfl, -⟩ := Prod.mk.inj same
    exact ofWord?_plain word
  simp only [scalar] at read
  split at read
  · split_ifs at read
    · obtain ⟨rfl, -⟩ := Prod.mk.inj (Option.some.inj read)
      rfl
    · exact alone read
  · exact alone read

end Plain

section Scanners

variable (scanner : Scanner Value) (proper : ProperScanner scanner)

include proper

/-- The value of a pair. -/
theorem pair_proper (text rest : List Char) (entry : List String × Value)
    (read : pair scanner text = some (entry, rest)) : entry.2.Proper := by
  rw [pair] at read
  split at read
  · obtain ⟨⟨value, behind⟩, scanned, same⟩ := Option.map_eq_some_iff.mp read
    obtain ⟨rfl, -⟩ := Prod.mk.inj same
    exact proper _ value behind scanned
  · simp at read

/-- The entries between braces. -/
theorem pairs_proper (left : Nat) (text rest : List Char) (entries : List (List String × Value))
    (read : pairs scanner left text = some (entries, rest)) : ∀ entry ∈ entries, entry.2.Proper := by
  induction left generalizing text entries rest with
  | zero => simp [pairs] at read
  | succ left inductionHypothesis =>
    rw [pairs] at read
    split at read
    · simp at read
    · rename_i entry behind first
      have own := pair_proper scanner proper text behind entry first
      split at read
      · obtain ⟨⟨others, last⟩, later, same⟩ := Option.map_eq_some_iff.mp read
        obtain ⟨rfl, -⟩ := Prod.mk.inj same
        exact List.forall_mem_cons.mpr ⟨own, inductionHypothesis _ _ others later⟩
      · obtain ⟨rfl, -⟩ := Prod.mk.inj (Option.some.inj read)
        simpa using own
      · simp at read

/-- A table between braces. -/
theorem braced_proper : ProperScanner (braced scanner) := by
  intro text value rest read
  rw [braced] at read
  split at read
  · obtain ⟨rfl, -⟩ := Prod.mk.inj (Option.some.inj read)
    exact proper_table _ distinct_nil
  · split at read
    · simp at read
    · rename_i entries behind within
      obtain ⟨table, filled, same⟩ := Option.map_eq_some_iff.mp read
      obtain ⟨rfl, -⟩ := Prod.mk.inj same
      exact proper_table _
        (Entries.fill_distinct entries (pairs_proper scanner proper _ _ behind entries within)
          distinct_nil filled)

end Scanners

/-- A value in which others may be nested. -/
theorem nested_proper (depth : Nat) : ProperScanner (nested depth) := by
  induction depth using Nat.strongRecOn with
  | ind depth inductionHypothesis =>
    intro text value rest read
    -- Texts and lists are no tables, whatever they hold.
    have plain {α : Type} {scanned : Option (α × List Char)} {make : α → Value}
        (noTable : ∀ content, (make content).tables = [])
        (read : scanned.map (fun (content, rest) => (make content, rest)) = some (value, rest)) :
        value.Proper := by
      obtain ⟨content, -, same⟩ := Option.map_eq_some_iff.mp read
      obtain ⟨rfl, -⟩ := Prod.mk.inj same
      exact proper_plain _ (noTable content.1)
    unfold nested at read
    split at read
    · exact plain (fun _ => rfl) read
    · exact plain (fun _ => rfl) read
    · split at read
      · simp at read
      · exact plain (fun _ => rfl) read
    · split at read
      · simp at read
      · rename_i inner
        exact braced_proper _ (inductionHypothesis inner (Nat.lt_succ_self inner)) _ value rest read
    · exact scalar_proper _ value rest read

/-- The value that a line gives under a key. -/
theorem line_proper (text rest : List Char) (path : List String) (value : Value)
    (read : line text = some (some (.entry path value), rest)) : value.Proper := by
  unfold line at read
  split at read
  · -- The header of a row.
    repeat' split at read
    all_goals simp at read
  · -- The header of a table.
    repeat' split at read
    all_goals simp at read
  · split at read
    · simp at read
    · split at read
      · simp at read
      · rename_i path' value' behind scanned
        obtain ⟨last, -, same⟩ := Option.map_eq_some_iff.mp read
        obtain ⟨⟨rfl, rfl⟩, -⟩ : (path' = path ∧ value' = value) ∧ last = rest := by
          simpa using same
        exact pair_proper _ (nested_proper nestingLimit) _ behind (path', value') scanned

/-- The values that the lines of a file give. -/
theorem lines_proper (left : Nat) (text : List Char) (found : List Line)
    (read : lines left text = some found) : ∀ value ∈ Entries.valuesOf found, value.Proper := by
  induction left generalizing text found with
  | zero =>
    cases text with
    | nil =>
      obtain rfl := Option.some.inj read
      simp [Entries.valuesOf]
    | cons => simp [lines] at read
  | succ left inductionHypothesis =>
    cases text with
    | nil =>
      obtain rfl := Option.some.inj read
      simp [Entries.valuesOf]
    | cons c text =>
      simp only [lines] at read
      split at read
      · simp at read
      · exact inductionHypothesis _ found read
      · rename_i first rest scanned
        obtain ⟨others, later, rfl⟩ := Option.map_eq_some_iff.mp read
        have remaining := inductionHypothesis rest others later
        cases first with
        | entry path value =>
          exact List.forall_mem_cons.mpr ⟨line_proper _ rest path value scanned, remaining⟩
        | table | row => exact remaining

/-- **No key stands twice.** -/
theorem read_distinct (text : String) (entries : Entries) (parses : read text = .ok entries) :
    Distinct entries := by
  have made : read? text = some entries := by
    rw [read] at parses
    split at parses
    · rename_i found
      rw [found, Except.ok.inj parses]
    · simp at parses
  obtain ⟨found, readLines, made⟩ := Option.bind_eq_some_iff.mp made
  exact Entries.ofLines_distinct found (lines_proper _ _ found readLines) made

end BuildWatch.Toml
