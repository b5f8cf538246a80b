import BuildWatch.Json.Printer
import BuildWatch.Proofs.Json.Grammar
import Mathlib.Data.List.TakeWhile

/-!
# The numbers that are read

A literal is taken apart from the left: a sign, the longest run of digits, a point with
the longest run of digits behind it, and a mark with an exponent. Nothing else that the
grammar allows begins with a digit, so the runs end where the parts do, and a literal is
taken apart into exactly the parts that it is made of.

An integer part stands for an integer when all its digits are taken into 64 bits. Their
value only grows with each digit, so this is a matter of the value of all of them.
-/

namespace BuildWatch.Json.Number

/-- What is read of a run of digits, when it is one. -/
theorem run_iff {α : Type} (digits : List Char) (read value : α) :
    (if digits.isEmpty || !digits.all Char.isDigit then none else some read) = some value ↔
      Digits digits ∧ read = value := by
  simp [Digits]

/-- A run of digits begins with no other character. -/
theorem Digits.head_ne {digits : List Char} (run : Digits digits) (c : Char)
    (other : c.isDigit = false) (rest : List Char) : digits ≠ c :: rest := by
  rintro rfl
  exact absurd (run.2 c List.mem_cons_self) (by simp [other])

/-- The text behind a mark without a sign is read as a run of digits. -/
theorem exponentOf?_unsigned (text : List Char) (noPlus : ∀ digits, text ≠ '+' :: digits)
    (noMinus : ∀ digits, text ≠ '-' :: digits) :
    exponentOf? text =
      if text.isEmpty || !text.all Char.isDigit then none
      else some (Text.digitsValue 0 text : Int) := by
  unfold exponentOf?
  split
  rename_i negative digits signed
  split at signed
  · exact absurd rfl (noPlus _)
  · exact absurd rfl (noMinus _)
  · obtain ⟨rfl, rfl⟩ := Prod.mk.inj signed
    rfl

/-- The exponent behind a mark is read from its text. -/
theorem exponentOf?_iff (mark : Char) (marks : mark = 'e' ∨ mark = 'E') (text : List Char)
    (value : Int) :
    exponentOf? text = some value ↔ ExponentText (mark :: text) (some value) := by
  constructor
  · intro read
    by_cases plus : ∃ digits, text = '+' :: digits
    · obtain ⟨digits, rfl⟩ := plus
      obtain ⟨run, rfl⟩ := (run_iff digits _ value).mp read
      exact ExponentText.plus mark digits marks run
    by_cases minus : ∃ digits, text = '-' :: digits
    · obtain ⟨digits, rfl⟩ := minus
      obtain ⟨run, rfl⟩ := (run_iff digits _ value).mp read
      exact ExponentText.minus mark digits marks run
    rw [exponentOf?_unsigned text (not_exists.mp plus) (not_exists.mp minus), run_iff] at read
    obtain ⟨run, rfl⟩ := read
    exact ExponentText.unsigned mark text marks run
  · intro spelled
    cases spelled with
    | plus mark digits marks run => exact (run_iff digits _ _).mpr ⟨run, rfl⟩
    | minus mark digits marks run => exact (run_iff digits _ _).mpr ⟨run, rfl⟩
    | unsigned mark digits marks run =>
      rw [exponentOf?_unsigned text (run.head_ne '+' (by decide)) (run.head_ne '-' (by decide)),
        run_iff]
      exact ⟨run, rfl⟩

/-- An integer part is one zero, or digits without a zero in front. -/
theorem isWhole_iff (digits : List Char) :
    isWhole digits = true ↔ Digits digits ∧ (digits.head? = some '0' → digits = ['0']) := by
  unfold isWhole
  split
  · simp [Digits]
  · simp [Digits]
  · simp_all [Digits, and_comm]

/-- The sign in front of a literal, and what is behind it. -/
def signOf (literal : List Char) : Bool × List Char :=
  match literal with
  | '-' :: rest => (true, rest)
  | rest => (false, rest)

/-- The fraction behind an integer part, and what is behind it. -/
def fractionOf (behind : List Char) : Option (List Char) × List Char :=
  match behind with
  | '.' :: rest => (some (rest.takeWhile Char.isDigit), rest.dropWhile Char.isDigit)
  | rest => (none, rest)

theorem signOf_text (literal : List Char) :
    literal = (if (signOf literal).1 then ['-'] else []) ++ (signOf literal).2 := by
  unfold signOf
  split <;> rfl

theorem fractionOf_text (behind : List Char) :
    behind = (fractionOf behind).1.elim [] ('.' :: ·) ++ (fractionOf behind).2 := by
  unfold fractionOf
  split
  · simp
  · rfl

theorem fractionOf_digits (behind digits : List Char)
    (present : (fractionOf behind).1 = some digits) : ∀ c ∈ digits, c.isDigit = true := by
  unfold fractionOf at present
  split at present
  · obtain rfl := Option.some.inj present
    exact fun c member => List.mem_takeWhile_imp member
  · exact absurd present (Option.some_ne_none digits).symm

/-- Behind an integer part and a fraction stands nothing, or a mark and an exponent. -/
theorem exponentText_cons (mark : Char) (text : List Char) (exponent : Option Int) :
    ExponentText (mark :: text) exponent ↔
      (mark = 'e' ∨ mark = 'E') ∧ exponent.isSome = true ∧ exponentOf? text = exponent := by
  constructor
  · intro spelled
    have marks : mark = 'e' ∨ mark = 'E' := by cases spelled <;> assumption
    cases exponent with
    | none => nomatch spelled
    | some value => exact ⟨marks, rfl, (exponentOf?_iff mark marks text value).mpr spelled⟩
  · rintro ⟨marks, present, read⟩
    obtain ⟨value, rfl⟩ := Option.isSome_iff_exists.mp present
    exact (exponentOf?_iff mark marks text value).mp read

/-- The parts that the pieces of a literal make up. -/
def ofPieces? (negative : Bool) (whole : List Char) (fraction : Option (List Char))
    (tail : List Char) : Option Parts :=
  let wellFormed := isWhole whole && fraction != some []
  match tail with
  | [] => if wellFormed then some ⟨negative, whole, fraction, none⟩ else none
  | mark :: exponent =>
    if wellFormed && (mark = 'e' || mark = 'E') then
      (exponentOf? exponent).map fun exponent => ⟨negative, whole, fraction, some exponent⟩
    else none

theorem parts?_pieces (literal : List Char) :
    parts? literal =
      ofPieces? (signOf literal).1 ((signOf literal).2.takeWhile Char.isDigit)
        (fractionOf ((signOf literal).2.dropWhile Char.isDigit)).1
        (fractionOf ((signOf literal).2.dropWhile Char.isDigit)).2 := rfl

theorem exponentText_nil (exponent : Option Int) : ExponentText [] exponent ↔ exponent = none := by
  constructor
  · rintro ⟨⟩
    rfl
  · rintro rfl
    exact ExponentText.absent

/-- Pieces make up parts when they are well-formed and the last is the text of an exponent. -/
theorem ofPieces?_iff (negative : Bool) (whole : List Char) (fraction : Option (List Char))
    (tail : List Char) (parts : Parts) :
    ofPieces? negative whole fraction tail = some parts ↔
      (isWhole whole = true ∧ fraction ≠ some []) ∧
        ∃ exponent, ExponentText tail exponent ∧ ⟨negative, whole, fraction, exponent⟩ = parts := by
  cases tail with
  | nil =>
    simp only [ofPieces?, exponentText_nil, exists_eq_left, Option.ite_none_right_eq_some,
      Option.some.injEq, Bool.and_eq_true, bne_iff_ne]
  | cons mark power =>
    simp only [ofPieces?, exponentText_cons, Option.ite_none_right_eq_some, Option.map_eq_some_iff,
      Bool.and_eq_true, Bool.or_eq_true, decide_eq_true_eq, bne_iff_ne]
    constructor
    · rintro ⟨⟨wellFormed, marks⟩, value, read, same⟩
      exact ⟨wellFormed, some value, ⟨marks, rfl, read⟩, same⟩
    · rintro ⟨wellFormed, exponent, ⟨marks, present, read⟩, same⟩
      obtain ⟨value, rfl⟩ := Option.isSome_iff_exists.mp present
      exact ⟨⟨wellFormed, marks⟩, value, read, same⟩

/-- A text that begins with no digit. -/
def Undigited (text : List Char) : Prop := ∀ c rest, text = c :: rest → c.isDigit = false

/-- A run of digits ends at the first other character. -/
theorem span_digits (digits behind : List Char) (run : ∀ c ∈ digits, c.isDigit = true)
    (ends : Undigited behind) :
    (digits ++ behind).takeWhile Char.isDigit = digits ∧
      (digits ++ behind).dropWhile Char.isDigit = behind := by
  rw [List.takeWhile_append_of_pos run, List.dropWhile_append_of_pos run]
  cases behind with
  | nil => simp
  | cons c rest => simp [ends c rest rfl]

theorem ExponentText.undigited {text : List Char} {exponent : Option Int}
    (spelled : ExponentText text exponent) : Undigited text := by
  rintro c rest rfl
  obtain ⟨rfl | rfl, -, -⟩ := (exponentText_cons c rest exponent).mp spelled <;> rfl

/-- A sign is found in front of the digits of an integer part. -/
theorem signOf_spelled (negative : Bool) (whole behind : List Char) (run : Digits whole) :
    signOf ((if negative then ['-'] else []) ++ (whole ++ behind)) = (negative, whole ++ behind) := by
  cases negative with
  | true => rfl
  | false =>
    obtain ⟨first, rest, rfl⟩ := List.exists_cons_of_ne_nil run.1
    refine signOf.eq_2 _ fun rest minus => ?_
    obtain ⟨rfl, -⟩ := List.cons.inj minus
    exact absurd (run.2 '-' List.mem_cons_self) (by decide)

/-- A fraction is found in front of an exponent. -/
theorem fractionOf_spelled (fraction : Option (List Char)) (exponentText : List Char)
    (exponent : Option Int) (run : ∀ digits, fraction = some digits → Digits digits)
    (power : ExponentText exponentText exponent) :
    fractionOf (fraction.elim [] ('.' :: ·) ++ exponentText) = (fraction, exponentText) := by
  cases fraction with
  | some digits =>
    obtain ⟨taken, dropped⟩ := span_digits digits exponentText (run digits rfl).2 power.undigited
    simp [fractionOf, taken, dropped]
  | none =>
    refine fractionOf.eq_2 _ ?_
    rintro rest rfl
    obtain ⟨marks, -⟩ := (exponentText_cons _ _ _).mp power
    exact absurd marks (by decide)

/-- Neither a fraction nor an exponent begins with a digit. -/
theorem undigited_spelled (fraction : Option (List Char)) (exponentText : List Char)
    (exponent : Option Int) (power : ExponentText exponentText exponent) :
    Undigited (fraction.elim [] ('.' :: ·) ++ exponentText) := by
  cases fraction with
  | none => exact power.undigited
  | some digits =>
    rintro c rest split
    obtain ⟨rfl, -⟩ := List.cons.inj split
    rfl

/-- A literal is taken apart into the parts it is made of, and into no others. -/
theorem parts?_literal (literal : List Char) (parts : Parts) :
    parts? literal = some parts ↔ Literal literal parts := by
  rw [parts?_pieces, ofPieces?_iff]
  constructor
  · rintro ⟨⟨wellFormed, noEmpty⟩, exponent, power, rfl⟩
    obtain ⟨run, noZero⟩ := (isWhole_iff _).mp wellFormed
    have fractionRun : ∀ digits,
        (fractionOf ((signOf literal).2.dropWhile Char.isDigit)).1 = some digits → Digits digits := by
      intro digits present
      exact ⟨fun empty => noEmpty (by rw [present, empty]), fractionOf_digits _ digits present⟩
    have spelled := Literal.parts (signOf literal).1 _ _ _ exponent run noZero fractionRun power
    rwa [List.append_assoc, ← fractionOf_text, List.append_assoc, List.takeWhile_append_dropWhile,
      ← signOf_text] at spelled
  · rintro ⟨negative, whole, fraction, exponentText, exponent, run, noZero, fractionRun, power⟩
    obtain ⟨taken, dropped⟩ := span_digits whole _ run.2
      (undigited_spelled fraction exponentText exponent power)
    have noEmpty : fraction ≠ some [] := fun empty => (fractionRun [] empty).1 rfl
    rw [List.append_assoc, List.append_assoc, signOf_spelled negative whole _ run, dropped, taken,
      fractionOf_spelled fraction exponentText exponent fractionRun power]
    exact ⟨⟨(isWhole_iff whole).mpr ⟨run, noZero⟩, noEmpty⟩, exponent, power, rfl⟩

/-- Reading digits from the left only grows the value. -/
theorem start_le_digitsValue (start : Nat) (digits : List Char) :
    start ≤ Text.digitsValue start digits := by
  induction digits generalizing start with
  | nil => exact Nat.le_refl start
  | cons digit rest inductionHypothesis =>
    have grown := inductionHypothesis (10 * start + (digit.toNat - '0'.toNat))
    have next : start ≤ 10 * start + (digit.toNat - '0'.toNat) := by omega
    exact Nat.le_trans next grown

/-- Digits whose value fits are all taken. The value only grows, so it fits after
every one of them. -/
theorem takeDigits_of_fits (start : Nat) (digits : List Char)
    (fits : Text.digitsValue start digits < unsignedBound) :
    takeDigits start digits = (Text.digitsValue start digits, []) := by
  induction digits generalizing start with
  | nil => rfl
  | cons digit rest inductionHypothesis =>
    have below : 10 * start + (digit.toNat - '0'.toNat) < unsignedBound :=
      Nat.lt_of_le_of_lt (start_le_digitsValue _ rest) fits
    simp only [takeDigits, below, if_true]
    exact inductionHypothesis _ fits

/-- Digits whose value does not fit are not all taken. -/
theorem takeDigits_left (start : Nat) (digits : List Char) (begun : start < unsignedBound)
    (exceeds : unsignedBound ≤ Text.digitsValue start digits) : (takeDigits start digits).2 ≠ [] := by
  induction digits generalizing start with
  | nil => exact absurd begun (Nat.not_lt.mpr exceeds)
  | cons digit rest inductionHypothesis =>
    by_cases below : 10 * start + (digit.toNat - '0'.toNat) < unsignedBound
    · simp only [takeDigits, below, if_true]
      exact inductionHypothesis _ below exceeds
    · simp only [takeDigits, below, if_false]
      exact List.cons_ne_nil digit rest

/-- An integer part without a sign is an integer when its value fits. -/
theorem ofParts_unsigned (whole : List Char) (value : Int) :
    ofParts ⟨false, whole, none, none⟩ = .integer value ↔
      Text.digitsValue 0 whole < UInt64.size ∧ Text.digitsValue 0 whole = value := by
  by_cases fits : Text.digitsValue 0 whole < unsignedBound
  · have natural : ofParts ⟨false, whole, none, none⟩ = .integer (Text.digitsValue 0 whole) := by
      simp [ofParts, takeDigits_of_fits 0 whole fits]
    rw [natural, Number.integer.injEq]
    exact (and_iff_right fits).symm
  · have left := takeDigits_left 0 whole (by decide) (Nat.le_of_not_lt fits)
    refine iff_of_false ?_ fun integer => fits integer.1
    simp [ofParts, left]

/-- Behind a minus sign it is one when its value fits half the range and is not zero. -/
theorem ofParts_signed (whole : List Char) (value : Int) :
    ofParts ⟨true, whole, none, none⟩ = .integer value ↔
      (0 < Text.digitsValue 0 whole ∧ Text.digitsValue 0 whole ≤ signedBound) ∧
        -(Text.digitsValue 0 whole : Int) = value := by
  by_cases fits : Text.digitsValue 0 whole < unsignedBound
  · by_cases bounded : 0 < Text.digitsValue 0 whole ∧ Text.digitsValue 0 whole ≤ signedBound
    · simp [ofParts, takeDigits_of_fits 0 whole fits, Nat.ne_of_gt bounded.1, bounded]
    · refine iff_of_false ?_ fun integer => bounded integer.1
      have outside : Text.digitsValue 0 whole = 0 ∨ ¬ Text.digitsValue 0 whole ≤ signedBound := by
        omega
      rcases outside with zero | beyond
      · simp [ofParts, takeDigits_of_fits 0 whole fits, zero]
      · simp [ofParts, takeDigits_of_fits 0 whole fits, beyond]
  · have left := takeDigits_left 0 whole (by decide) (Nat.le_of_not_lt fits)
    refine iff_of_false ?_ fun integer => fits (Nat.lt_of_le_of_lt integer.1.2 (by decide))
    simp [ofParts, left]

/-- An integer is read from an integer part alone, and only when it fits. -/
theorem integer_iff (parts : Parts) (value : Int) :
    ofParts parts = .integer value ↔ Means parts (.integer value) := by
  obtain ⟨negative, whole, fraction, exponent⟩ := parts
  constructor
  · intro integer
    cases fraction with
    | some digits => exact Number.noConfusion integer
    | none =>
      cases exponent with
      | some power => exact Number.noConfusion integer
      | none =>
        cases negative with
        | false =>
          obtain ⟨bounded, rfl⟩ := (ofParts_unsigned whole value).mp integer
          exact Means.natural whole bounded
        | true =>
          obtain ⟨⟨positive, bounded⟩, rfl⟩ := (ofParts_signed whole value).mp integer
          exact Means.negative whole positive bounded
  · rintro (⟨_, bounded⟩ | ⟨_, positive, bounded⟩)
    · exact (ofParts_unsigned whole _).mpr ⟨bounded, rfl⟩
    · exact (ofParts_signed whole _).mpr ⟨⟨positive, bounded⟩, rfl⟩

/-- The number that the parts of a literal stand for is the one read from them. -/
theorem means_iff (parts : Parts) (number : Number) :
    Means parts number ↔ ofParts parts = number ∧ number.isFinite = true := by
  cases number with
  | integer value => rw [← integer_iff, isFinite, and_iff_left rfl]
  | decimal negative significand exponent =>
    constructor
    · rintro ⟨⟩
      exact ⟨‹_›, ‹_›⟩
    · rintro ⟨rounds, finite⟩
      exact Means.decimal parts negative significand exponent rounds finite

/-- The numbers that are read are those of the grammar. -/
theorem read?_iff (literal : List Char) (number : Number) :
    read? literal = some number ↔ ∃ parts, Literal literal parts ∧ Means parts number := by
  simp only [← parts?_literal, means_iff]
  unfold read?
  cases parts? literal with
  | none => simp
  | some parts =>
    simp only [Option.ite_none_right_eq_some, Option.some.injEq, exists_eq_left']
    constructor
    · rintro ⟨finite, rfl⟩
      exact ⟨rfl, finite⟩
    · rintro ⟨rfl, finite⟩
      exact ⟨finite, rfl⟩

/-- A text made of the characters of literals. -/
def Plain (text : List Char) : Prop := ∀ c ∈ text, Token.isLiteral c = true

instance (text : List Char) : Decidable (Plain text) :=
  List.decidableBAll _ text

theorem Plain.cons {c : Char} {text : List Char} (isPart : Token.isLiteral c = true)
    (plain : Plain text) : Plain (c :: text) :=
  List.forall_mem_cons.mpr ⟨isPart, plain⟩

theorem Plain.append {text more : List Char} (first : Plain text) (second : Plain more) :
    Plain (text ++ more) :=
  List.forall_mem_append.mpr ⟨first, second⟩

theorem Digits.plain {digits : List Char} (run : Digits digits) : Plain digits := by
  intro c member
  simp only [Token.isLiteral, run.2 c member, Bool.true_or]

theorem ExponentText.plain {text : List Char} {exponent : Option Int}
    (spelled : ExponentText text exponent) : Plain text := by
  have mark (c : Char) (marks : c = 'e' ∨ c = 'E') : Token.isLiteral c = true := by
    rcases marks with rfl | rfl <;> rfl
  cases spelled with
  | absent => exact fun c member => absurd member List.not_mem_nil
  | unsigned c digits marks run => exact run.plain.cons (mark c marks)
  | plus c digits marks run => exact (run.plain.cons rfl).cons (mark c marks)
  | minus c digits marks run => exact (run.plain.cons rfl).cons (mark c marks)

/-- The literals of the grammar are made of the characters of literals. -/
theorem Literal.plain {literal : List Char} {parts : Parts} (spelled : Literal literal parts) :
    Plain literal := by
  obtain ⟨negative, whole, fraction, exponentText, exponent, run, -, fractionRun, power⟩ := spelled
  have sign : Plain (if negative then ['-'] else []) := by
    cases negative <;> simp [Plain, Token.isLiteral]
  have point : Plain (fraction.elim [] ('.' :: ·)) := by
    cases fraction with
    | none => exact fun c member => absurd member List.not_mem_nil
    | some digits => exact (fractionRun digits rfl).plain.cons rfl
  exact ((sign.append run.plain).append point).append power.plain

/-- A natural number is written by its decimal digits. -/
theorem written_natural (value : Nat) : written (.integer value) = Nat.toDigits 10 value := by
  simp only [written, Int.toString_eq_repr, Int.repr_eq_if, Int.natCast_nonneg, if_true,
    Int.toNat_natCast, Nat.toList_repr]

theorem digits_isDigit (value : Nat) (c : Char) (digit : c ∈ Nat.toDigits 10 value) :
    c.isDigit = true :=
  Nat.isDigit_of_mem_toDigits (by decide) (by decide) digit

theorem digitsValue_digits (value : Nat) : Text.digitsValue 0 (Nat.toDigits 10 value) = value :=
  Nat.ofDigitChars_ten_toDigits

/-- The digits of a number that is not zero start with another digit than zero. The
induction follows the digits from the last one to the first. -/
theorem digits_head (value : Nat) (positive : 0 < value) :
    ∃ first rest, Nat.toDigits 10 value = first :: rest ∧ first ≠ '0' := by
  induction value using Nat.strongRecOn with
  | ind value inductionHypothesis =>
    by_cases small : value < 10
    · refine ⟨value.digitChar, [], Nat.toDigits_of_lt_base small, ?_⟩
      intro zero
      have digits : ∀ digit < 10, digit.digitChar = '0' → digit = 0 := by decide
      exact Nat.ne_of_gt positive (digits value small zero)
    · obtain ⟨first, rest, split, nonzero⟩ :=
        inductionHypothesis (value / 10) (by omega) (by omega)
      refine ⟨first, rest ++ [(value % 10).digitChar], ?_, nonzero⟩
      rw [Nat.toDigits_of_base_le (by decide) (by omega), split, List.cons_append]

/-- The digits of a number are a literal without sign, fraction and exponent. -/
theorem literal_digits (value : Nat) :
    Literal (Nat.toDigits 10 value) ⟨false, Nat.toDigits 10 value, none, none⟩ := by
  have run : Digits (Nat.toDigits 10 value) := ⟨Nat.toDigits_ne_nil, digits_isDigit value⟩
  have noZero : (Nat.toDigits 10 value).head? = some '0' → Nat.toDigits 10 value = ['0'] := by
    intro zero
    by_cases positive : 0 < value
    · obtain ⟨first, rest, split, nonzero⟩ := digits_head value positive
      rw [split, List.head?_cons, Option.some.injEq] at zero
      exact absurd zero nonzero
    · obtain rfl : value = 0 := by omega
      rfl
  have spelled := Literal.parts false _ none [] none run noZero (by simp) ExponentText.absent
  simpa using spelled

/-- A natural number of 64 bits is what its digits stand for. -/
theorem means_digits (value : Nat) (bounded : value < UInt64.size) :
    Means ⟨false, Nat.toDigits 10 value, none, none⟩ (.integer value) := by
  have means := Means.natural (Nat.toDigits 10 value) (by rw [digitsValue_digits]; exact bounded)
  rwa [digitsValue_digits] at means

end BuildWatch.Json.Number
