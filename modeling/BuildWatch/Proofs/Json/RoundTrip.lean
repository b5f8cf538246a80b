import BuildWatch.Json.Printer
import BuildWatch.Proofs.Json.Document

/-!
# Written values are read back

What the program sends is limited: numbers are natural and fit a word of 64 bits, the keys
of an object differ, and arrays and objects nest to a limited depth. The text of such a
value is one of the grammar, so the reader gives the value back.
-/

namespace BuildWatch.Json

/-- Values that are sent: natural numbers of 64 bits, different keys in an object, and
arrays and objects nested at most to a depth. -/
inductive Fits : Nat → Json → Prop where
  | null (depth : Nat) : Fits depth .null
  | bool (depth : Nat) (value : Bool) : Fits depth (.bool value)
  | natural (depth value : Nat) (bounded : value < UInt64.size) : Fits depth (.natural value)
  | text (depth : Nat) (value : String) : Fits depth (.text value)
  | array (depth : Nat) (items : List Json) (inside : ∀ item ∈ items, Fits depth item) :
      Fits (depth + 1) (.array items)
  | object (depth : Nat) (fields : List (String × Json)) (distinct : (fields.map Prod.fst).Nodup)
      (inside : ∀ field ∈ fields, Fits depth field.2) : Fits (depth + 1) (.object fields)

theorem Fits.word32 (depth : Nat) (value : UInt32) : Fits depth (.natural value.toNat) :=
  Fits.natural depth _ (Nat.lt_trans value.toNat_lt_size (by decide))

theorem Fits.word64 (depth : Nat) (value : UInt64) : Fits depth (.natural value.toNat) :=
  Fits.natural depth _ value.toNat_lt_size

/-- The escape of a control character has its code. -/
theorem codeOf?_control : ∀ code < 32,
    Token.codeOf? ['0', '0', hexDigit (code / 16), hexDigit (code % 16)] = some code := by
  decide

/-- A character is written as the grammar has it. -/
theorem escapeChar_characters (c : Char) (body value : List Char) (rest : Characters body value) :
    Characters (escapeChar c ++ body) (c :: value) := by
  unfold escapeChar
  split_ifs with quote slash back feed line carriage tab control
  · subst quote; exact Characters.letter '"' _ body value rfl rest
  · subst slash; exact Characters.letter '\\' _ body value rfl rest
  · subst back; exact Characters.letter 'b' _ body value rfl rest
  · subst feed; exact Characters.letter 'f' _ body value rfl rest
  · subst line; exact Characters.letter 'n' _ body value rfl rest
  · subst carriage; exact Characters.letter 'r' _ body value rfl rest
  · subst tab; exact Characters.letter 't' _ body value rfl rest
  · have coded := Characters.code _ c.toNat body value rfl (codeOf?_control c.toNat control)
      (by omega) rest
    rwa [Char.ofNat_toNat] at coded
  · exact Characters.plain c body value (Nat.le_of_not_lt control) quote slash rest

/-- A string is written as the grammar has it. -/
theorem quote_spells (depth : Nat) (text : String) : Spells depth (quote text) (.text text) := by
  have inside (characters : List Char) :
      Characters (characters.flatMap escapeChar) characters := by
    induction characters with
    | nil => exact Characters.nil
    | cons c rest inductionHypothesis => exact escapeChar_characters c _ rest inductionHypothesis
  have spells := Spells.text depth _ text.toList (inside text.toList)
  rwa [String.ofList_toList] at spells

theorem printItems_text (items : List Json) :
    printItems items = (items.flatMap fun item => ',' :: print item) ++ [']'] := by
  induction items with
  | nil => rfl
  | cons item rest inductionHypothesis =>
    rw [printItems, inductionHypothesis, List.flatMap_cons, List.append_assoc]

/-- A field as it is written. -/
def memberOf (field : String × Json) : Member := ⟨quote field.1, field.1, print field.2, field.2⟩

theorem printFields_text (fields : List (String × Json)) :
    printFields fields = (fields.flatMap fun field => ',' :: (memberOf field).written) ++ ['\x7d'] := by
  induction fields with
  | nil => rfl
  | cons field rest inductionHypothesis =>
    rw [printFields, inductionHypothesis, List.flatMap_cons]
    simp [memberOf, Member.written]

/-- A key that an object does not have yet goes behind those it has. -/
theorem putField_fresh (key : String) (value : Json) (fields : List (String × Json))
    (fresh : key ∉ fields.map Prod.fst) : putField key value fields = fields ++ [(key, value)] := by
  induction fields with
  | nil => rfl
  | cons field rest inductionHypothesis =>
    obtain ⟨other, old⟩ := field
    rw [List.map_cons, List.mem_cons, not_or] at fresh
    have different : other ≠ key := fun same => fresh.1 same.symm
    simp only [putField, different, if_false, inductionHypothesis fresh.2, List.cons_append]

/-- Fields with different keys all stay, in the order written. -/
theorem enter_fresh (rest held : List (String × Json)) (distinct : ((held ++ rest).map Prod.fst).Nodup) :
    (rest.map memberOf).foldl Member.enter held = held ++ rest := by
  induction rest generalizing held with
  | nil => exact (List.append_nil held).symm
  | cons field rest inductionHypothesis =>
    have fresh : field.1 ∉ held.map Prod.fst := by
      rw [List.map_append, List.map_cons] at distinct
      exact fun member => (List.nodup_append.mp distinct).2.2 _ member _ List.mem_cons_self rfl
    have next : Member.enter held (memberOf field) = held ++ [field] :=
      putField_fresh field.1 field.2 held fresh
    rw [List.append_cons] at distinct ⊢
    rw [List.map_cons, List.foldl_cons, next, inductionHypothesis _ distinct]

/-- A sent value is written as the grammar has it. The induction is on how deep the value
nests. -/
theorem Fits.spells {depth : Nat} {value : Json} (fits : Fits depth value) :
    Spells depth (print value) value := by
  induction fits with
  | null depth => exact Spells.null depth
  | bool depth value =>
    cases value with
    | true => exact Spells.bool depth true
    | false => exact Spells.bool depth false
  | natural depth value bounded =>
    rw [Json.natural, print, Number.written_natural]
    exact Spells.number depth _ _ _ (Number.literal_digits value) (Number.means_digits value bounded)
  | text depth value => exact quote_spells depth value
  | array depth items inside inductionHypothesis =>
    cases items with
    | nil => exact Spells.emptyArray depth [] (by simp [Blank])
    | cons item rest =>
      have each : ∀ written ∈ (item :: rest).map fun item => (print item, item),
          Spells depth written.1 written.2 := List.forall_mem_map.mpr inductionHypothesis
      have spells := Spells.array depth (print item, item) (rest.map fun item => (print item, item)) each
      rw [print, printItems_text]
      simpa [List.flatMap_map, List.map_map, Function.comp_def] using spells
  | object depth fields distinct inside inductionHypothesis =>
    cases fields with
    | nil => exact Spells.emptyObject depth [] (by simp [Blank])
    | cons field rest =>
      have keys : ∀ member ∈ (field :: rest).map memberOf,
          Spells depth member.keyText (.text member.key) :=
        List.forall_mem_map.mpr fun field _ => quote_spells depth field.1
      have values : ∀ member ∈ (field :: rest).map memberOf, Spells depth member.text member.value :=
        List.forall_mem_map.mpr inductionHypothesis
      have spells := Spells.object depth (memberOf field) (rest.map memberOf) keys values
      have entered := enter_fresh (field :: rest) [] distinct
      rw [List.map_cons] at entered
      rw [entered] at spells
      rw [print, printFields_text]
      simpa [List.flatMap_map, Member.written, memberOf] using spells

/-- A sent value is read back from its text, unless it nests deeper than the reader goes. -/
theorem read?_written (value : Json) (fits : Fits depthLimit value) :
    read? value.written = some value := by
  rw [read?_iff, written, String.toList_ofList]
  exact fits.spells

end BuildWatch.Json
