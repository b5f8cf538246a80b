import BuildWatch.Proofs.Text.Blank
import BuildWatch.Text.Numeral
import Mathlib.Data.List.Induction
import Mathlib.Data.Nat.Digits.Defs

/-!
# Which texts are numerals

A numeral is at least one ASCII digit, with or without a plus sign in front. Zeros may open it,
so a number has many numerals, but a numeral is one number's only. What is read is the number of
a numeral that does not exceed the bound, and every number is read back from its written form.
-/

namespace BuildWatch.Text

/-- The number that decimal digits stand for. -/
def placeValue (digits : List Char) : Nat :=
  Nat.ofDigits 10 (digits.reverse.map fun digit => digit.toNat - '0'.toNat)

/-- The text of a number: digits, at least one, with or without a plus sign in front. -/
inductive Numeral : List Char → Nat → Prop
  | plain (digits : List Char) (nonempty : digits ≠ []) (run : ∀ c ∈ digits, c.isDigit = true) :
      Numeral digits (placeValue digits)
  | signed (digits : List Char) (nonempty : digits ≠ []) (run : ∀ c ∈ digits, c.isDigit = true) :
      Numeral ('+' :: digits) (placeValue digits)

/-- Reading from the left, each digit moves the value so far up one place. -/
theorem digitsValue_eq (digits : List Char) : digitsValue 0 digits = placeValue digits := by
  induction digits using List.reverseRecOn with
  | nil => rfl
  | append_singleton front last inductionHypothesis =>
    have read : digitsValue 0 (front ++ [last]) =
        10 * digitsValue 0 front + (last.toNat - '0'.toNat) := by
      simp [digitsValue, List.foldl_append]
    rw [read, inductionHypothesis, placeValue, placeValue, List.reverse_append, List.reverse_singleton,
      List.singleton_append, List.map_cons, Nat.ofDigits_cons, Nat.add_comm]

theorem dropPlus_plain (digits : List Char) (run : ∀ c ∈ digits, c.isDigit = true) :
    dropPlus digits = digits := by
  unfold dropPlus
  split
  · exact absurd (run '+' List.mem_cons_self) (by decide)
  · rfl

/-- A text is a numeral when digits are left of it without its plus sign, and those tell the number. -/
theorem numeral_iff (text : List Char) (value : Nat) :
    Numeral text value ↔
      (dropPlus text ≠ [] ∧ ∀ c ∈ dropPlus text, c.isDigit = true) ∧ placeValue (dropPlus text) = value := by
  constructor
  · rintro (⟨_, nonempty, run⟩ | ⟨digits, nonempty, run⟩)
    · rw [dropPlus_plain _ run]
      exact ⟨⟨nonempty, run⟩, rfl⟩
    · exact ⟨⟨nonempty, run⟩, rfl⟩
  · rintro ⟨⟨nonempty, run⟩, rfl⟩
    revert nonempty run
    unfold dropPlus
    split
    · exact Numeral.signed _
    · exact Numeral.plain _

/-- A numeral is one number's only. -/
theorem Numeral.unique {text : List Char} {one other : Nat} (first : Numeral text one)
    (second : Numeral text other) : one = other := by
  rw [numeral_iff] at first second
  exact first.2.symm.trans second.2

/-- A numeral has digits only, and a plus sign at most. -/
theorem Numeral.characters {text : List Char} {value : Nat} (numeral : Numeral text value) :
    ∀ c ∈ text, c = '+' ∨ c.isDigit = true := by
  intro c member
  cases numeral with
  | plain _ _ run => exact Or.inr (run c member)
  | signed digits _ run =>
    rcases List.mem_cons.mp member with rfl | later
    · exact Or.inl rfl
    · exact Or.inr (run c later)

theorem Numeral.nonempty {text : List Char} {value : Nat} (numeral : Numeral text value) :
    text ≠ [] := by
  cases numeral with
  | plain _ nonempty => exact nonempty
  | signed => exact List.cons_ne_nil _ _

theorem Numeral.noColon {text : List Char} {value : Nat} (numeral : Numeral text value) :
    ':' ∉ text := by
  intro member
  rcases numeral.characters ':' member with plus | digit
  · exact absurd plus (by decide)
  · exact absurd digit (by decide)

/-- No character of a numeral is blank. -/
theorem Numeral.solid {text : List Char} {value : Nat} (numeral : Numeral text value) :
    ∀ c ∈ text, isBlank c = false := by
  intro c member
  rcases numeral.characters c member with rfl | digit
  · decide
  · simp only [Char.isDigit, Bool.and_eq_true, decide_eq_true_eq, ge_iff_le, UInt32.le_iff_toNat_le] at digit
    obtain ⟨low, high⟩ := digit
    have least : 48 ≤ c.toNat := low
    have most : c.toNat ≤ 57 := high
    simp only [isBlank, Bool.or_eq_false_iff, Bool.and_eq_false_iff, decide_eq_false_iff_not,
      beq_eq_false_iff_ne]
    omega

/-- What is read is the number of a numeral that does not exceed the bound. -/
theorem numeral?_iff (bound : Nat) (text : List Char) (value : Nat) :
    numeral? bound text = some value ↔ Numeral text value ∧ value ≤ bound := by
  have refused : ((dropPlus text).isEmpty || !(dropPlus text).all Char.isDigit) = true ↔
      ¬ (dropPlus text ≠ [] ∧ ∀ c ∈ dropPlus text, c.isDigit = true) := by
    simp [imp_iff_not_or]
  simp only [numeral?, numeral_iff, digitsValue_eq, Option.ite_none_left_eq_some,
    Option.ite_none_right_eq_some, Option.some.injEq, refused, not_not]
  constructor
  · rintro ⟨digits, bounded, rfl⟩
    exact ⟨⟨digits, rfl⟩, bounded⟩
  · rintro ⟨⟨digits, rfl⟩, bounded⟩
    exact ⟨digits, bounded, rfl⟩

/-- A number of 32 bits is read from each of its numerals. -/
theorem word32?_iff (text : List Char) (word : UInt32) :
    word32? text = some word ↔ Numeral text word.toNat := by
  rw [word32?, Option.map_eq_some_iff]
  constructor
  · rintro ⟨value, read, rfl⟩
    obtain ⟨numeral, bounded⟩ := (numeral?_iff _ text value).mp read
    rwa [UInt32.toNat_ofNat_of_lt' (Nat.lt_of_le_pred (by decide) bounded)]
  · intro numeral
    exact ⟨word.toNat, (numeral?_iff _ text _).mpr ⟨numeral, Nat.le_pred_of_lt word.toNat_lt_size⟩,
      UInt32.ofNat_toNat⟩

/-- Every number has a numeral, its written form. -/
theorem numeral_written (value : Nat) : Numeral (toString value).toList value := by
  have run : ∀ c ∈ (toString value).toList, c.isDigit = true := by
    intro c member
    rw [Nat.toString_eq_ofList_toDigits, String.toList_ofList] at member
    exact Nat.isDigit_of_mem_toDigits (by decide) (by decide) member
  have nonempty : (toString value).toList ≠ [] := by
    rw [Nat.toString_eq_ofList_toDigits, String.toList_ofList]
    exact Nat.toDigits_ne_nil
  have worth : placeValue (toString value).toList = value := by
    rw [← digitsValue_eq, Nat.toString_eq_ofList_toDigits, String.toList_ofList]
    exact Nat.ofDigitChars_ten_toDigits
  have numeral := Numeral.plain _ nonempty run
  rwa [worth] at numeral

end BuildWatch.Text
