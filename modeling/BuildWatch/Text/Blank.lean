/-!
# Blank characters and words

A character is blank when it has the Unicode property White_Space. Trimming
drops blank characters from both ends, and the words of a text are its longest
stretches without a blank one. Everything is written on lists of characters, so
that a law about a text is an induction on it; the `String` forms only convert.
-/

namespace BuildWatch.Text

/-- The characters with the Unicode property White_Space. -/
def isBlank (c : Char) : Bool :=
  let code := c.toNat
  (0x09 ≤ code && code ≤ 0x0D) || code == 0x20 || code == 0x85 || code == 0xA0 ||
    code == 0x1680 || (0x2000 ≤ code && code ≤ 0x200A) || code == 0x2028 || code == 0x2029 ||
    code == 0x202F || code == 0x205F || code == 0x3000

/-- The text without its leading blank characters. -/
def dropBlank (text : List Char) : List Char := text.dropWhile isBlank

/-- The text without the blank characters at its two ends. -/
def trimmed (text : List Char) : List Char := (dropBlank (dropBlank text).reverse).reverse

/-- The first word and what follows it; the word is empty when the text starts blank. -/
def firstWord (text : List Char) : List Char × List Char :=
  (text.takeWhile (!isBlank ·), text.dropWhile (!isBlank ·))

/-- Add one character in front of a split into words. A blank one closes the word
behind it, and any other character joins that word. -/
private def consWord (c : Char) : List Char × List (List Char) → List Char × List (List Char)
  | (word, later) =>
    if isBlank c then ([], if word.isEmpty then later else word :: later) else (c :: word, later)

/-- The maximal stretches without a blank character, in order. -/
def wordsOf (text : List Char) : List (List Char) :=
  let (word, later) := text.foldr consWord ([], [])
  if word.isEmpty then later else word :: later

theorem wordsOf_nil : wordsOf [] = [] := rfl

/-- A blank character in front of a text makes no difference to its words. -/
theorem wordsOf_blank (c : Char) (rest : List Char) (blank : isBlank c = true) :
    wordsOf (c :: rest) = wordsOf rest := by
  simp [wordsOf, consWord, blank]

/-- A stretch without blank characters is a word when nothing or a blank character follows. -/
theorem wordsOf_word (word rest : List Char) (nonempty : word ≠ [])
    (solid : ∀ c ∈ word, isBlank c = false) (ends : ∀ c ∈ rest.head?, isBlank c = true) :
    wordsOf (word ++ rest) = word :: wordsOf rest := by
  have open_ : (rest.foldr consWord ([], [])).1 = [] := by
    cases rest with
    | nil => rfl
    | cons c later => simp [consWord, ends c rfl]
  have joined : (word ++ rest).foldr consWord ([], []) = (word, (rest.foldr consWord ([], [])).2) := by
    induction word with
    | nil => exact absurd rfl nonempty
    | cons c letters inductionHypothesis =>
      obtain ⟨first, others⟩ := List.forall_mem_cons.mp solid
      cases letters with
      | nil => simp [consWord, first, open_]
      | cons second letters =>
        rw [List.cons_append, List.foldr_cons, inductionHypothesis (by simp) others]
        simp [consWord, first]
  simp [wordsOf, joined, open_, nonempty]

/-- `trimmed` on strings. -/
def trim (text : String) : String := String.ofList (trimmed text.toList)

/-- `wordsOf` on strings. -/
def words (text : String) : List String := (wordsOf text.toList).map String.ofList

/-- Whether a text has blank characters only; the empty text has. -/
def isAllBlank (text : String) : Bool := text.toList.all isBlank

example : trim "  a b\u2003\n" = "a b" := by decide
example : words " a  bc\u00a0d " = ["a", "bc", "d"] := by decide

end BuildWatch.Text
