import BuildWatch.Proofs.Json.RoundTrip
import BuildWatch.Text.Blank

/-!
# A value is one line

The program and its worker send each other lines, and a value is sent as one. Its
text has no control character inside, hence no line end, so the end that is written
behind it is where the receiver cuts. A blank line is the text of no value, so
skipping blank lines skips nothing that was sent.
-/

namespace BuildWatch.Json

/-- A text without the control characters below U+0020. -/
def Uncontrolled (text : List Char) : Prop := ∀ c ∈ text, 0x20 ≤ c.toNat

instance (text : List Char) : Decidable (Uncontrolled text) :=
  List.decidableBAll _ text

/-- Without control characters a text has no line end in it. -/
theorem Uncontrolled.inLine {text : List Char} (uncontrolled : Uncontrolled text) : '\n' ∉ text :=
  fun member => absurd (uncontrolled '\n' member) (by decide)

theorem Uncontrolled.append {text more : List Char} (first : Uncontrolled text)
    (second : Uncontrolled more) : Uncontrolled (text ++ more) :=
  List.forall_mem_append.mpr ⟨first, second⟩

theorem Uncontrolled.cons {c : Char} {text : List Char} (visible : 0x20 ≤ c.toNat)
    (uncontrolled : Uncontrolled text) : Uncontrolled (c :: text) :=
  List.forall_mem_cons.mpr ⟨visible, uncontrolled⟩

/-- Inside a string a control character is written as an escape. -/
theorem escapeChar_uncontrolled (c : Char) : Uncontrolled (escapeChar c) := by
  have controls : ∀ code < 32,
      Uncontrolled ['\\', 'u', '0', '0', hexDigit (code / 16), hexDigit (code % 16)] := by
    decide
  unfold escapeChar
  split_ifs with quote slash back feed line carriage tab control
  · decide
  · decide
  · decide
  · decide
  · decide
  · decide
  · decide
  · exact controls c.toNat control
  · intro d member
    rw [List.mem_singleton.mp member]
    exact Nat.le_of_not_lt control

theorem quote_uncontrolled (text : String) : Uncontrolled (quote text) := by
  have inside : Uncontrolled (text.toList.flatMap escapeChar) := by
    intro d member
    obtain ⟨c, -, written⟩ := List.mem_flatMap.mp member
    exact escapeChar_uncontrolled c d written
  have closing : Uncontrolled ['"'] := by decide
  exact (inside.append closing).cons (by decide)

theorem items_uncontrolled (items : List Json) (each : ∀ item ∈ items, Uncontrolled (print item)) :
    Uncontrolled (printItems items) := by
  induction items with
  | nil => decide
  | cons item rest inductionHypothesis =>
    have first := each item List.mem_cons_self
    have later := inductionHypothesis fun other member => each other (List.mem_cons_of_mem item member)
    exact (first.append later).cons (by decide)

theorem fields_uncontrolled (fields : List (String × Json))
    (each : ∀ field ∈ fields, Uncontrolled (print field.2)) : Uncontrolled (printFields fields) := by
  induction fields with
  | nil => decide
  | cons field rest inductionHypothesis =>
    have first := each field List.mem_cons_self
    have later := inductionHypothesis fun other member => each other (List.mem_cons_of_mem field member)
    have key := quote_uncontrolled field.1
    exact ((key.append (first.cons (by decide))).append later).cons (by decide)

/-- The text of a sent value has no control characters in it. -/
theorem print_uncontrolled (depth : Nat) (value : Json) (fits : Fits depth value) :
    Uncontrolled (print value) := by
  induction fits with
  | null => decide
  | bool depth value => cases value <;> decide
  | natural depth value bounded =>
    rw [natural, print, Number.written_natural]
    intro c member
    have range := Char.isDigit_iff_toNat.mp (Number.digits_isDigit value c member)
    simp only [Char.reduceToNat] at range
    omega
  | text depth value => exact quote_uncontrolled value
  | array depth items inside inductionHypothesis =>
    cases items with
    | nil => decide
    | cons item rest =>
      have first := inductionHypothesis item List.mem_cons_self
      have later := items_uncontrolled rest fun other member =>
        inductionHypothesis other (List.mem_cons_of_mem item member)
      exact (first.append later).cons (by decide)
  | object depth fields distinct inside inductionHypothesis =>
    cases fields with
    | nil => decide
    | cons field rest =>
      have first := inductionHypothesis field List.mem_cons_self
      have later := fields_uncontrolled rest fun other member =>
        inductionHypothesis other (List.mem_cons_of_mem field member)
      have key := quote_uncontrolled field.1
      exact ((key.append (first.cons (by decide))).append later).cons (by decide)

/-- The written form of a sent value is a single line. -/
theorem written_uncontrolled (depth : Nat) (value : Json) (fits : Fits depth value) :
    Uncontrolled value.written.toList := by
  rw [written, String.toList_ofList]
  exact print_uncontrolled depth value fits

/-- A letter stands between the first and the last one of its case. -/
theorem letter_range (c : Char) (letter : c.isAlpha = true) :
    ('A'.toNat ≤ c.toNat ∧ c.toNat ≤ 'Z'.toNat) ∨ ('a'.toNat ≤ c.toNat ∧ c.toNat ≤ 'z'.toNat) := by
  have either : (c.isUpper || c.isLower) = true := letter
  rw [Bool.or_eq_true] at either
  rcases either with upper | lower
  · have range : 'A'.val ≤ c.val ∧ c.val ≤ 'Z'.val := of_decide_eq_true upper
    exact Or.inl ⟨UInt32.le_iff_toNat_le.mp range.1, UInt32.le_iff_toNat_le.mp range.2⟩
  · have range : (decide ('a'.val ≤ c.val) && decide (c.val ≤ 'z'.val)) = true := lower
    simp only [Bool.and_eq_true, decide_eq_true_eq] at range
    exact Or.inr ⟨UInt32.le_iff_toNat_le.mp range.1, UInt32.le_iff_toNat_le.mp range.2⟩

/-- The characters of literals are visible ones of ASCII. -/
theorem literal_visible (c : Char) (isPart : Token.isLiteral c = true) :
    0x20 < c.toNat ∧ c.toNat < 0x7F := by
  simp only [Token.isLiteral, Bool.or_eq_true, decide_eq_true_eq] at isPart
  rcases isPart with (((digit | letter) | rfl) | rfl) | rfl
  · have range := Char.isDigit_iff_toNat.mp digit
    simp only [Char.reduceToNat] at range
    omega
  · have range := letter_range c letter
    simp only [Char.reduceToNat] at range
    omega
  · decide
  · decide
  · decide

/-- So are the marks of the grammar. -/
theorem mark_visible (c : Char) (mark : Token) (marks : Token.mark? c = some mark) :
    0x20 < c.toNat ∧ c.toNat < 0x7F := by
  rcases Token.mark_cases c mark marks with rfl | rfl | rfl | rfl | rfl | rfl <;> decide

/-- No visible character of ASCII is blank. -/
theorem blank_invisible (c : Char) (blank : Text.isBlank c = true) :
    ¬ (0x20 < c.toNat ∧ c.toNat < 0x7F) := by
  simp only [Text.isBlank, Bool.or_eq_true, Bool.and_eq_true, decide_eq_true_eq, beq_iff_eq] at blank
  omega

/-- A blank character begins no token: it is white space of the grammar, or nothing
the grammar knows. -/
theorem blank_begins (c : Char) (blank : Text.isBlank c = true) (scan : Token.Scan)
    (begun : Token.beginToken [] c = some scan) : scan = Token.Scan.start := by
  have hidden := blank_invisible c blank
  have noQuote : c ≠ '"' := by
    rintro rfl
    exact hidden (by decide)
  have noLiteral : Token.isLiteral c = false := by
    rw [Bool.eq_false_iff]
    exact fun isPart => hidden (literal_visible c isPart)
  have noMark : Token.mark? c = none := by
    rw [Option.eq_none_iff_forall_ne_some]
    exact fun mark marks => hidden (mark_visible c mark marks)
  by_cases space : Token.isSpace c = true
  · rw [Token.beginToken, if_pos space] at begun
    exact (Option.some.inj begun).symm
  · simp [Token.beginToken, space, noQuote, noLiteral, noMark] at begun

/-- A blank line is the text of no value. -/
theorem read?_blank (text : String) (blank : Text.isAllBlank text = true) : read? text = none := by
  have nothing (characters : List Char) (allBlank : characters.all Text.isBlank = true) :
      ∀ scan, characters.foldlM Token.step Token.Scan.start = some scan → scan = Token.Scan.start := by
    induction characters with
    | nil =>
      intro scan read
      exact (Option.some.inj read).symm
    | cons c rest inductionHypothesis =>
      intro scan read
      rw [List.all_cons, Bool.and_eq_true] at allBlank
      rw [List.foldlM_cons] at read
      obtain ⟨middle, begun, later⟩ := Option.bind_eq_some_iff.mp read
      obtain rfl := blank_begins c allBlank.1 middle begun
      exact inductionHypothesis allBlank.2 scan later
  rw [Option.eq_none_iff_forall_ne_some]
  intro value made
  obtain ⟨tokens, cut, built⟩ := Option.bind_eq_some_iff.mp made
  obtain ⟨scan, read, finished⟩ := Option.bind_eq_some_iff.mp cut
  obtain rfl := nothing text.toList blank scan read
  obtain rfl : [] = tokens := Option.some.inj finished
  have nothingBuilt : ofTokens? [] = none := rfl
  rw [nothingBuilt] at built
  exact absurd built (Option.some_ne_none value).symm

end BuildWatch.Json
