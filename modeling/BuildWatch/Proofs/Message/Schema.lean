import BuildWatch.Message.Reader
import BuildWatch.Proofs.Json.Keys
import Mathlib.Data.List.Forall2

/-!
# What the fields of a response denote

The declarations of the records, said without a reader. A value denotes a record when it
has the fields of this record in one of its two forms, and each field that is declared
denotes the value that the record has there. Fields that are not declared may hold
anything.

The reader goes through the fields in the order written and keeps a draft. Each step sets
at most one place of the draft, and no two fields have the same key, so at the end every
place holds what its own field denotes.
-/

namespace BuildWatch

/-- A cause that names a value that does not fit, or a field that is missing. -/
def SchemaFault.AboutValue : SchemaFault → Prop
  | .notJson | .noType => False
  | _ => True

namespace Schema

/-- An integer of 64 bits. -/
def Word64 (value : Json) (number : UInt64) : Prop := value = .natural number.toNat

/-- An integer of 32 bits. -/
def Word32 (value : Json) (number : UInt32) : Prop := value = .natural number.toNat

/-- A text. -/
def Text (value : Json) (content : String) : Prop := value = .text content

/-- What may be null. -/
def Nullable {α : Type} (denotes : Json → α → Prop) (value : Json) : Option α → Prop
  | none => value = .null
  | some result => value ≠ .null ∧ denotes value result

/-- An array of which each item denotes something. -/
def Items {α : Type} (denotes : Json → α → Prop) (value : Json) (results : List α) : Prop :=
  ∃ items, value = .array items ∧ List.Forall₂ denotes items results

/-- The fields of a record: those of an object, or the items of an array under the names
declared. Only an open-ended array may have fewer items than there are names. -/
inductive Entries (shape : Shape) : Json → List (String × Json) → Prop where
  | object (fields : List (String × Json)) : Entries shape (.object fields) fields
  | array (items : List Json) (noMore : items.length ≤ shape.fields.length)
      (enough : shape.openEnded = false → items.length = shape.fields.length) :
      Entries shape (.array items) (shape.fields.zip items)

/-- A field is there and denotes something. -/
def Holds {α : Type} (fields : List (String × Json)) (field : String) (denotes : Json → α → Prop)
    (result : α) : Prop :=
  ∃ value, fields.lookup field = some value ∧ denotes value result

/-- A field denotes something, or it is not there and what is denoted is known. -/
def HoldsOr {α : Type} (absent : α) (fields : List (String × Json)) (field : String)
    (denotes : Json → α → Prop) (result : α) : Prop :=
  fields.lookup field = none ∧ result = absent ∨ Holds fields field denotes result

/-! ## Single values -/

theorem bind_ok {ε α β : Type} (first : Except ε α) (next : α → Except ε β) (result : β) :
    first >>= next = .ok result ↔ ∃ value, first = .ok value ∧ next value = .ok result := by
  cases first with
  | error fault => simp [bind, Except.bind]
  | ok value => simp [bind, Except.bind]

theorem map_ok {ε α β : Type} (first : Except ε α) (convert : α → β) (result : β) :
    first.map convert = .ok result ↔ ∃ value, first = .ok value ∧ convert value = result := by
  cases first with
  | error fault => simp [Except.map]
  | ok value => simp [Except.map]

theorem map_accepts {ε α β : Type} {first : Except ε α} (convert : α → β)
    (accepted : ∃ value, first = .ok value) : ∃ result, first.map convert = .ok result := by
  obtain ⟨value, rfl⟩ := accepted
  exact ⟨convert value, rfl⟩

theorem required_ok {α : Type} (field : String) (held : Option α) (value : α) :
    required field held = .ok value ↔ held = some value := by
  cases held with
  | none => simp [required]
  | some other => simp [required]

/-- A word is an integer in range. -/
theorem word_ok (bound : Nat) (expected : Expected) (value : Json) (number : Nat) :
    word bound expected value = .ok number ↔ value = .natural number ∧ number < bound := by
  unfold word
  split
  · rename_i integer
    simp only [Json.natural, Json.number.injEq, Json.Number.integer.injEq]
    split_ifs with fits
    · rw [Except.ok.injEq]
      omega
    · simp only [false_iff]
      omega
  · rename_i other noInteger
    simp only [reduceCtorEq, false_iff]
    rintro ⟨rfl, -⟩
    exact noInteger _ rfl

theorem word64_ok (value : Json) (number : UInt64) :
    word64 value = .ok number ↔ Word64 value number := by
  simp only [word64, map_ok, word_ok, Word64]
  constructor
  · rintro ⟨natural, ⟨rfl, bounded⟩, rfl⟩
    rw [UInt64.toNat_ofNat_of_lt' bounded]
  · rintro rfl
    exact ⟨number.toNat, ⟨rfl, number.toNat_lt_size⟩, UInt64.ofNat_toNat⟩

theorem word32_ok (value : Json) (number : UInt32) :
    word32 value = .ok number ↔ Word32 value number := by
  simp only [word32, map_ok, word_ok, Word32]
  constructor
  · rintro ⟨natural, ⟨rfl, bounded⟩, rfl⟩
    rw [UInt32.toNat_ofNat_of_lt' bounded]
  · rintro rfl
    exact ⟨number.toNat, ⟨rfl, number.toNat_lt_size⟩, UInt32.ofNat_toNat⟩

theorem text_ok (value : Json) (content : String) : text value = .ok content ↔ Text value content := by
  cases value <;> simp [text, Text]

theorem optional_ok {α : Type} (read : Json → Except SchemaFault α) (value : Json)
    (result : Option α) :
    optional read value = .ok result ↔ Nullable (fun value own => read value = .ok own) value result := by
  by_cases absent : value = .null
  · subst absent
    cases result <;> simp [optional, Nullable]
  · rw [optional.eq_2 read value absent, map_ok]
    cases result <;> simp [absent, Nullable]

theorem list_ok {α : Type} (read : Json → Except SchemaFault α) (value : Json) (results : List α) :
    list read value = .ok results ↔ Items (fun item result => read item = .ok result) value results := by
  have each (items : List Json) (results : List α) : items.mapM read = .ok results ↔
      List.Forall₂ (fun item result => read item = .ok result) items results := by
    induction items generalizing results with
    | nil => simp [pure, Except.pure, eq_comm]
    | cons item rest inductionHypothesis =>
      rw [List.mapM_cons, bind_ok]
      simp only [bind_ok, inductionHypothesis]
      constructor
      · rintro ⟨first, own, others, later, same⟩
        obtain rfl := Except.ok.inj same
        exact List.Forall₂.cons own later
      · rintro (_ | ⟨own, later⟩)
        exact ⟨_, own, _, later, rfl⟩
  cases value with
  | array items => simp [list, each, Items]
  | _ => simp [list, Items]

/-! ## The fields of a record -/

section Visit

variable {σ α β : Type} (take : σ → String → Json → Except SchemaFault σ)

theorem visit_cons (start : σ) (name : String) (value : Json) (rest : List (String × Json)) :
    visit take start ((name, value) :: rest) =
      (take start name value).bind fun next => visit take next rest := by
  rw [visit, List.foldlM_cons]
  rfl

/-- A record is read from its fields. -/
theorem visitRecord_ok (shape : Shape) (start final : σ) (value : Json) :
    visitRecord shape take start value = .ok final ↔
      ∃ fields, Entries shape value fields ∧ visit take start fields = .ok final := by
  cases value with
  | object fields =>
    constructor
    · exact fun read => ⟨fields, Entries.object fields, read⟩
    · rintro ⟨_, ⟨⟩, read⟩
      exact read
  | array items =>
    rw [visitRecord]
    constructor
    · intro read
      cases visited : visit take start (shape.fields.zip items) with
      | error fault => simp [visited] at read
      | ok state =>
        simp only [visited] at read
        split_ifs at read with short long
        obtain rfl := Except.ok.inj read
        refine ⟨_, Entries.array items (Nat.le_of_not_lt long) fun closed => ?_, visited⟩
        have notShort : ¬ items.length < shape.fields.length := by simpa [closed] using short
        omega
    · rintro ⟨fields, entries, visited⟩
      cases entries with
      | array _ noMore enough =>
        have notShort : ¬ (items.length < shape.fields.length ∧ !shape.openEnded) := by
          rintro ⟨less, closed⟩
          have full := enough (by simpa using closed)
          omega
        simp only [visited, notShort, if_false, Nat.not_lt.mpr noMore]
  | _ =>
    simp only [visitRecord, reduceCtorEq, false_iff, not_exists, not_and]
    rintro _ ⟨⟩

/-- A place of the draft that one field sets, and no other. -/
structure Column (field : String) (read : Json → Except SchemaFault α) (held : σ → β)
    (put : α → β) : Prop where
  taken : ∀ state value next, take state field value = .ok next →
    ∃ result, read value = .ok result ∧ held next = put result
  kept : ∀ state name value next, name ≠ field → take state name value = .ok next →
    held next = held state

/-- At the end a place holds what its own field was read as, or what it held before. -/
theorem Column.visited {take : σ → String → Json → Except SchemaFault σ} {field : String}
    {read : Json → Except SchemaFault α} {held : σ → β} {put : α → β}
    (column : Column take field read held put) (fields : List (String × Json))
    (distinct : (fields.map Prod.fst).Nodup) (start final : σ)
    (visited : visit take start fields = .ok final) :
    fields.lookup field = none ∧ held final = held start ∨
      ∃ value result, fields.lookup field = some value ∧ read value = .ok result ∧
        held final = put result := by
  induction fields generalizing start with
  | nil =>
    obtain rfl := Except.ok.inj visited
    exact Or.inl ⟨rfl, rfl⟩
  | cons entry rest inductionHypothesis =>
    obtain ⟨name, value⟩ := entry
    obtain ⟨fresh, others⟩ := List.nodup_cons.mp distinct
    rw [visit_cons] at visited
    obtain ⟨next, own, later⟩ := (bind_ok _ _ _).mp visited
    by_cases same : name = field
    · subst same
      have alone : rest.lookup name = none := by
        refine List.lookup_eq_none_iff.mpr fun other member => bne_iff_ne.mpr fun again => ?_
        exact fresh (List.mem_map.mpr ⟨other, member, again.symm⟩)
      obtain ⟨result, read, set⟩ := column.taken start value next own
      rcases inductionHypothesis others next later with ⟨-, unchanged⟩ | ⟨other, _, found, -⟩
      · exact Or.inr ⟨value, result, List.lookup_cons_self, read, unchanged.trans set⟩
      · simp [alone] at found
    · have skipped : ((name, value) :: rest).lookup field = rest.lookup field := by
        rw [List.lookup_cons, beq_eq_false_iff_ne.mpr (Ne.symm same)]
      rw [skipped, ← column.kept start name value next same own]
      exact inductionHypothesis others next later

/-- When every field can be taken all of them are. -/
theorem visit_accepts (fields : List (String × Json)) (start : σ)
    (accepts : ∀ entry ∈ fields, ∀ state, ∃ next, take state entry.1 entry.2 = .ok next) :
    ∃ final, visit take start fields = .ok final := by
  induction fields generalizing start with
  | nil => exact ⟨start, rfl⟩
  | cons entry rest inductionHypothesis =>
    obtain ⟨own, others⟩ := List.forall_mem_cons.mp accepts
    obtain ⟨next, taken⟩ := own start
    obtain ⟨final, later⟩ := inductionHypothesis next others
    exact ⟨final, by rw [visit_cons, taken]; exact later⟩

end Visit

theorem zip_names {β : Type} (names : List String) (items : List β) :
    ((names.zip items).map Prod.fst).Sublist names := by
  induction names generalizing items with
  | nil => exact List.Sublist.slnil
  | cons name rest inductionHypothesis =>
    cases items with
    | nil => exact List.nil_sublist _
    | cons item items => exact (inductionHypothesis items).cons_cons name

/-- Whichever form a record has, its keys differ. -/
theorem Entries.keyed {shape : Shape} {value : Json} {fields : List (String × Json)}
    (entries : Entries shape value fields) (names : shape.fields.Nodup) (keyed : Json.Keyed value) :
    Json.Keyed (.object fields) := by
  cases entries with
  | object => exact keyed
  | array items noMore enough =>
    cases keyed with
    | array _ inside =>
      exact Json.Keyed.object _ (names.sublist (zip_names shape.fields items))
        fun entry member => inside entry.2 (List.of_mem_zip member).2

theorem lookup_of_mem (fields : List (String × Json)) (distinct : (fields.map Prod.fst).Nodup)
    (entry : String × Json) (member : entry ∈ fields) : fields.lookup entry.1 = some entry.2 := by
  obtain ⟨front, behind, rfl⟩ := List.append_of_mem member
  refine List.lookup_eq_some_iff.mpr ⟨front, behind, rfl, fun other inside => bne_iff_ne.mpr ?_⟩
  rw [List.map_append, List.map_cons, List.nodup_append] at distinct
  exact (distinct.2.2 other.1 (List.mem_map_of_mem inside) entry.1 List.mem_cons_self).symm

theorem mem_of_lookup (fields : List (String × Json)) (field : String) (value : Json)
    (found : fields.lookup field = some value) : (field, value) ∈ fields := by
  obtain ⟨front, behind, rfl, -⟩ := List.lookup_eq_some_iff.mp found
  simp

/-- What is read from a value is what the value denotes. -/
def Reads {α : Type} (read : Json → Except SchemaFault α) (denotes : Json → α → Prop) : Prop :=
  ∀ value, Json.Keyed value → ∀ result, read value = .ok result ↔ denotes value result

theorem word64_reads : Reads word64 Word64 := fun value _ => word64_ok value

theorem word32_reads : Reads word32 Word32 := fun value _ => word32_ok value

theorem text_reads : Reads text Text := fun value _ => text_ok value

section Denotes

variable {σ α : Type} {take : σ → String → Json → Except SchemaFault σ} {field : String}
  {read : Json → Except SchemaFault α} {denotes : Json → α → Prop} {fields : List (String × Json)}

theorem optional_reads (reads : Reads read denotes) : Reads (optional read) (Nullable denotes) := by
  intro value keyed result
  rw [optional_ok]
  cases result with
  | none => rfl
  | some result => simp only [Nullable, reads value keyed result]

theorem list_reads (reads : Reads read denotes) : Reads (list read) (Items denotes) := by
  intro value keyed results
  rw [list_ok]
  refine exists_congr fun items => and_congr_right ?_
  rintro rfl
  cases keyed with
  | array _ inside =>
    induction items generalizing results with
    | nil => simp
    | cons item rest inductionHypothesis =>
      obtain ⟨own, others⟩ := List.forall_mem_cons.mp inside
      cases results with
      | nil => simp
      | cons result results =>
        rw [List.forall₂_cons, List.forall₂_cons, reads item own result,
          inductionHypothesis results others]

theorem keyed_distinct (keyed : Json.Keyed (.object fields)) : (fields.map Prod.fst).Nodup := by
  cases keyed
  assumption

/-- The value of a field has different keys in all objects if those of its object have. -/
theorem keyed_field (keyed : Json.Keyed (.object fields)) {value : Json}
    (found : fields.lookup field = some value) : Json.Keyed value := by
  cases keyed with
  | object _ _ inside => exact inside _ (mem_of_lookup fields field value found)

/-- A field that has to be there is read as what it denotes. -/
theorem Column.holds {held : σ → Option α} (column : Column take field read held some)
    (keyed : Json.Keyed (.object fields)) (reads : Reads read denotes) (start : σ)
    (empty : held start = none) (final : σ) (visited : visit take start fields = .ok final)
    (result : α) : held final = some result ↔ Holds fields field denotes result := by
  rcases column.visited fields (keyed_distinct keyed) start final visited with
    ⟨absent, unchanged⟩ | ⟨value, own, found, taken, set⟩
  · simp [Holds, absent, unchanged, empty]
  · have denoted := reads value (keyed_field keyed found) result
    simp only [Holds, found, set, Option.some.injEq, exists_eq_left', ← denoted, taken,
      Except.ok.injEq]

/-- A field that may be absent is read as what it denotes. -/
theorem Column.holdsOr {held : σ → α} (column : Column take field read held id)
    (keyed : Json.Keyed (.object fields)) (reads : Reads read denotes) (start final : σ)
    (visited : visit take start fields = .ok final) (result : α) :
    held final = result ↔ HoldsOr (held start) fields field denotes result := by
  rcases column.visited fields (keyed_distinct keyed) start final visited with
    ⟨absent, unchanged⟩ | ⟨value, own, found, taken, set⟩
  · simp [HoldsOr, Holds, absent, unchanged, eq_comm]
  · have denoted := reads value (keyed_field keyed found) result
    simp only [HoldsOr, Holds, found, set, id_eq, reduceCtorEq, false_and, false_or,
      Option.some.injEq, exists_eq_left', ← denoted, taken, Except.ok.injEq]

/-- A field that denotes something can be read. -/
theorem Holds.readable (keyed : Json.Keyed (.object fields)) (reads : Reads read denotes) {result : α}
    (holds : Holds fields field denotes result) {entry : String × Json} (member : entry ∈ fields)
    (own : entry.1 = field) : ∃ result, read entry.2 = .ok result := by
  subst own
  obtain ⟨value, found, denoted⟩ := holds
  obtain rfl : entry.2 = value := by
    simpa [lookup_of_mem fields (keyed_distinct keyed) entry member] using found
  exact ⟨result, (reads entry.2 (keyed_field keyed found) result).mpr denoted⟩

theorem HoldsOr.readable {absent : α} (keyed : Json.Keyed (.object fields))
    (reads : Reads read denotes) {result : α} (holds : HoldsOr absent fields field denotes result)
    {entry : String × Json} (member : entry ∈ fields) (own : entry.1 = field) :
    ∃ result, read entry.2 = .ok result := by
  rcases holds with ⟨missing, -⟩ | holds
  · rw [← own, lookup_of_mem fields (keyed_distinct keyed) entry member] at missing
    exact absurd missing (Option.some_ne_none _)
  · exact holds.readable keyed reads member own

end Denotes

/-! ## What goes wrong -/

/-- A reading that fails for no other cause. -/
def Strict {α : Type} (result : Except SchemaFault α) : Prop :=
  ∀ fault, result = .error fault → fault.AboutValue

theorem Strict.ok {α : Type} (value : α) : Strict (.ok value) :=
  fun _ failed => absurd failed (by simp)

theorem Strict.error {α : Type} {fault : SchemaFault} (about : fault.AboutValue) :
    Strict (.error fault : Except SchemaFault α) := by
  rintro _ ⟨⟩
  exact about

theorem Strict.bind {α β : Type} {first : Except SchemaFault α} {next : α → Except SchemaFault β}
    (strict : Strict first) (later : ∀ value, Strict (next value)) : Strict (first >>= next) := by
  cases first with
  | error fault => exact Strict.error (strict fault rfl)
  | ok value => exact later value

theorem Strict.map {α β : Type} {first : Except SchemaFault α} (strict : Strict first)
    (convert : α → β) : Strict (first.map convert) := by
  cases first with
  | error fault => exact Strict.error (strict fault rfl)
  | ok value => exact Strict.ok (convert value)

theorem required_strict {α : Type} (field : String) (held : Option α) :
    Strict (required field held) := by
  cases held with
  | none => exact Strict.error trivial
  | some value => exact Strict.ok value

theorem word_strict (bound : Nat) (expected : Expected) (value : Json) :
    Strict (word bound expected value) := by
  unfold word
  split
  · split
    · exact Strict.ok _
    · exact Strict.error trivial
  · exact Strict.error trivial

theorem text_strict (value : Json) : Strict (text value) := by
  unfold text
  split
  · exact Strict.ok _
  · exact Strict.error trivial

theorem optional_strict {α : Type} {read : Json → Except SchemaFault α}
    (strict : ∀ value, Strict (read value)) (value : Json) : Strict (optional read value) := by
  unfold optional
  split
  · exact Strict.ok none
  · exact (strict value).map some

theorem list_strict {α : Type} {read : Json → Except SchemaFault α}
    (strict : ∀ value, Strict (read value)) (value : Json) : Strict (list read value) := by
  unfold list
  split
  · rename_i items
    induction items with
    | nil => exact Strict.ok []
    | cons item rest inductionHypothesis =>
      rw [List.mapM_cons]
      exact (strict item).bind fun first => inductionHypothesis.bind fun _ => Strict.ok _
  · exact Strict.error trivial

theorem visit_strict {σ : Type} {take : σ → String → Json → Except SchemaFault σ}
    (strict : ∀ state field value, Strict (take state field value)) (start : σ)
    (fields : List (String × Json)) : Strict (visit take start fields) := by
  induction fields generalizing start with
  | nil => exact Strict.ok start
  | cons field rest inductionHypothesis =>
    rw [visit_cons]
    exact (strict start field.1 field.2).bind inductionHypothesis

theorem visitRecord_strict {σ : Type} {take : σ → String → Json → Except SchemaFault σ}
    (strict : ∀ state field value, Strict (take state field value)) (shape : Shape) (start : σ)
    (value : Json) : Strict (visitRecord shape take start value) := by
  cases value with
  | object fields => exact visit_strict strict start fields
  | array items =>
    rw [visitRecord]
    have visited := visit_strict strict start (shape.fields.zip items)
    split
    · rename_i fault failed
      exact Strict.error (visited fault failed)
    · split
      · exact Strict.error trivial
      · split
        · exact Strict.error trivial
        · exact Strict.ok _
  | _ => exact Strict.error trivial

theorem word64_strict (value : Json) : Strict (word64 value) := (word_strict _ _ value).map _

theorem word32_strict (value : Json) : Strict (word32 value) := (word_strict _ _ value).map _

end Schema
end BuildWatch
