import BuildWatch.Text.Blank
import Mathlib.Data.List.Basic
import Mathlib.Data.List.TakeWhile

/-!
# What is left of a text without its blank characters

A trimmed text is the one text that neither begins nor ends blank and has only blank characters
around it. The words of a text are the one list of texts without blank characters that stand in
it with only blank characters around them, at least one between two words.
-/

namespace BuildWatch.Text

/-- A text of blank characters only; the empty text is one. -/
def AllBlank (text : List Char) : Prop := ∀ c ∈ text, isBlank c = true

/-- A text that does not begin with a blank character. -/
def OpensSolid (text : List Char) : Prop := ∀ c ∈ text.head?, isBlank c = false

instance : (text : List Char) → Decidable (OpensSolid text)
  | [] => isTrue (by simp [OpensSolid])
  | c :: _ => decidable_of_iff (isBlank c = false) (by simp [OpensSolid])

/-- A text that does not end with a blank character. -/
def EndsSolid (text : List Char) : Prop := ∀ c ∈ text.getLast?, isBlank c = false

/-- What is left of a text without the blank characters at its two ends. -/
structure Trims (text core : List Char) : Prop where
  around : ∃ before after, AllBlank before ∧ AllBlank after ∧ text = before ++ core ++ after
  opens : OpensSolid core
  ends : EndsSolid core

theorem AllBlank.nil : AllBlank [] := by simp [AllBlank]

theorem AllBlank.append {before after : List Char} (first : AllBlank before) (second : AllBlank after) :
    AllBlank (before ++ after) := by
  intro c member
  rcases List.mem_append.mp member with early | late
  · exact first c early
  · exact second c late

theorem OpensSolid.append {text : List Char} (opens : OpensSolid text) (nonempty : text ≠ [])
    (more : List Char) : OpensSolid (text ++ more) := by
  intro c member
  rw [List.head?_append_of_ne_nil _ nonempty] at member
  exact opens c member

theorem EndsSolid.append {text : List Char} (ends : EndsSolid text) (nonempty : text ≠ [])
    (front : List Char) : EndsSolid (front ++ text) := by
  intro c member
  rw [List.getLast?_append_of_ne_nil _ nonempty] at member
  exact ends c member

/-- A text that neither begins nor ends blank is what is left of itself. -/
theorem Trims.own {core : List Char} (opens : OpensSolid core) (ends : EndsSolid core) :
    Trims core core :=
  ⟨⟨[], [], .nil, .nil, by simp⟩, opens, ends⟩

theorem isAllBlank_iff (text : String) : isAllBlank text = true ↔ AllBlank text.toList := by
  rw [isAllBlank, List.all_eq_true, AllBlank]

/-- The blank characters in front of a text are dropped, and no others. -/
theorem dropBlank_append (before rest : List Char) (blank : AllBlank before) (opens : OpensSolid rest) :
    dropBlank (before ++ rest) = rest := by
  rw [dropBlank, List.dropWhile_append_of_pos blank]
  cases rest with
  | nil => rfl
  | cons c later => rw [List.dropWhile_cons_of_neg (by simp [opens c rfl])]

/-- A text is cut in front of its first character that is not blank. -/
theorem dropBlank_cut (text : List Char) :
    ∃ before, AllBlank before ∧ text = before ++ dropBlank text ∧ OpensSolid (dropBlank text) := by
  refine ⟨text.takeWhile isBlank, fun c member => List.mem_takeWhile_imp member,
    List.takeWhile_append_dropWhile.symm, fun c member => ?_⟩
  have first := List.head?_dropWhile_not isBlank text
  rw [dropBlank, Option.mem_def] at member
  rwa [member] at first

theorem trimmed_append (before core after : List Char) (blank : AllBlank before)
    (blank' : AllBlank after) (opens : OpensSolid core) (ends : EndsSolid core) :
    trimmed (before ++ core ++ after) = core := by
  rcases List.eq_nil_or_concat' core with rfl | ⟨front, last, rfl⟩
  · have whole := dropBlank_append (before ++ after) [] (blank.append blank') (by simp [OpensSolid])
    rw [List.append_nil] at whole ⊢
    rw [trimmed, whole]
    rfl
  · have opens' : OpensSolid (front ++ [last] ++ after) := opens.append (by simp) after
    have ends' : OpensSolid (front ++ [last]).reverse := by
      intro c member
      exact ends c (by rwa [List.head?_reverse] at member)
    have blank_reverse : AllBlank after.reverse := fun c member => blank' c (List.mem_reverse.mp member)
    rw [List.append_assoc, trimmed, dropBlank_append before _ blank opens', List.reverse_append,
      dropBlank_append _ _ blank_reverse ends', List.reverse_reverse]

theorem trims_trimmed (text : List Char) : Trims text (trimmed text) := by
  obtain ⟨before, blank, cut, opens⟩ := dropBlank_cut text
  obtain ⟨after, blank', cut', ends⟩ := dropBlank_cut (dropBlank text).reverse
  have whole : dropBlank text = trimmed text ++ after.reverse := by
    rw [trimmed, ← List.reverse_append, ← cut', List.reverse_reverse]
  have blank_reverse : AllBlank after.reverse := fun c member => blank' c (List.mem_reverse.mp member)
  refine ⟨⟨before, after.reverse, blank, blank_reverse, ?_⟩, ?_, ?_⟩
  · rw [List.append_assoc, ← whole, ← cut]
  · intro c member
    refine opens c ?_
    rw [whole, Option.mem_def, List.head?_append, Option.mem_def.mp member, Option.some_or]
  · intro c member
    refine ends c ?_
    rwa [trimmed, List.getLast?_reverse] at member

/-- A trimmed text is the one that is left. -/
theorem trims_iff (text core : List Char) : Trims text core ↔ core = trimmed text := by
  constructor
  · rintro ⟨⟨before, after, blank, blank', rfl⟩, opens, ends⟩
    exact (trimmed_append before core after blank blank' opens ends).symm
  · rintro rfl
    exact trims_trimmed text

/-- Blank characters around a text make no difference to what is left of it. -/
theorem Trims.within {text core before after : List Char} (trims : Trims text core)
    (blank : AllBlank before) (blank' : AllBlank after) : Trims (before ++ text ++ after) core := by
  obtain ⟨⟨front, back, blankFront, blankBack, rfl⟩, opens, ends⟩ := trims
  refine ⟨⟨before ++ front, back ++ after, blank.append blankFront, blankBack.append blank', ?_⟩,
    opens, ends⟩
  simp only [List.append_assoc]

theorem trimmed_around (before text after : List Char) (blank : AllBlank before)
    (blank' : AllBlank after) : trimmed (before ++ text ++ after) = trimmed text := by
  rw [eq_comm, ← trims_iff]
  exact (trims_trimmed text).within blank blank'

theorem trimmed_trimmed (text : List Char) : trimmed (trimmed text) = trimmed text := by
  obtain ⟨-, opens, ends⟩ := trims_trimmed text
  rw [eq_comm, ← trims_iff]
  exact Trims.own opens ends

/-- Nothing is left exactly of a blank text. -/
theorem trimmed_eq_nil_iff (text : List Char) : trimmed text = [] ↔ AllBlank text := by
  rw [eq_comm, ← trims_iff]
  constructor
  · rintro ⟨⟨before, after, blank, blank', rfl⟩, -, -⟩
    rw [List.append_nil]
    exact blank.append blank'
  · intro blank
    exact ⟨⟨text, [], blank, .nil, by simp⟩, by simp [OpensSolid], by simp [EndsSolid]⟩

/-- A text is a word and what follows it, which is nothing or begins with a blank character. The
word is empty when the text is, or begins with a blank character. -/
structure OpensWith (text word rest : List Char) : Prop where
  text : text = word ++ rest
  solid : ∀ c ∈ word, isBlank c = false
  ends : ∀ c ∈ rest.head?, isBlank c = true

/-- The first word is the longest one at the beginning. -/
theorem opensWith_iff (text word rest : List Char) :
    OpensWith text word rest ↔ firstWord text = (word, rest) := by
  rw [firstWord]
  constructor
  · rintro ⟨rfl, solid, ends⟩
    have within : ∀ c ∈ word, (!isBlank c) = true := fun c member => by simp [solid c member]
    rw [List.takeWhile_append_of_pos within, List.dropWhile_append_of_pos within]
    cases rest with
    | nil => simp
    | cons c later => simp [ends c rfl]
  · intro cut
    obtain ⟨rfl, rfl⟩ := Prod.mk.inj cut
    refine ⟨List.takeWhile_append_dropWhile.symm, fun c member => ?_, fun c member => ?_⟩
    · simpa using List.mem_takeWhile_imp member
    · have first := List.head?_dropWhile_not (!isBlank ·) text
      rw [Option.mem_def] at member
      rw [member] at first
      simpa using first

/-- A text is split into its words: each has a character, and none that is blank, and only blank
characters stand around them, at least one between two words. -/
inductive Splits : List Char → List (List Char) → Prop
  | nothing (text : List Char) (blank : AllBlank text) : Splits text []
  | word (before word rest : List Char) (words : List (List Char)) (blank : AllBlank before)
      (nonempty : word ≠ []) (solid : ∀ c ∈ word, isBlank c = false)
      (ends : ∀ c ∈ rest.head?, isBlank c = true) (others : Splits rest words) :
      Splits (before ++ word ++ rest) (word :: words)

theorem wordsOf_append_blank (before rest : List Char) (blank : AllBlank before) :
    wordsOf (before ++ rest) = wordsOf rest := by
  induction before with
  | nil => rfl
  | cons c others inductionHypothesis =>
    obtain ⟨first, later⟩ := List.forall_mem_cons.mp blank
    rw [List.cons_append, wordsOf_blank c _ first, inductionHypothesis later]

/-- A text is blank, or has a first word behind blank characters. -/
theorem cut_word (text : List Char) :
    AllBlank text ∨ ∃ before word rest, AllBlank before ∧ word ≠ [] ∧ OpensWith (word ++ rest) word rest ∧
      text = before ++ word ++ rest := by
  obtain ⟨before, blank, cut, opens⟩ := dropBlank_cut text
  cases left : dropBlank text with
  | nil =>
    rw [left, List.append_nil] at cut
    exact Or.inl (cut ▸ blank)
  | cons c later =>
    have first : OpensWith (c :: later) (firstWord (c :: later)).1 (firstWord (c :: later)).2 :=
      (opensWith_iff _ _ _).mpr rfl
    have nonempty : (firstWord (c :: later)).1 ≠ [] := by
      simp [firstWord, opens c (by rw [left]; rfl)]
    refine Or.inr ⟨before, _, _, blank, nonempty, ⟨rfl, first.solid, first.ends⟩, ?_⟩
    rw [List.append_assoc, ← first.text, ← left]
    exact cut

theorem splits_wordsOf (text : List Char) : Splits text (wordsOf text) := by
  induction length : text.length using Nat.strongRecOn generalizing text with
  | ind size inductionHypothesis =>
    rcases cut_word text with blank | ⟨before, word, rest, blank, nonempty, first, rfl⟩
    · have none := wordsOf_append_blank text [] blank
      rw [List.append_nil, wordsOf_nil] at none
      exact none ▸ .nothing text blank
    · have shorter : rest.length < size := by
        have some_ := List.length_pos_iff.mpr nonempty
        simp only [List.length_append] at length
        omega
      rw [List.append_assoc, wordsOf_append_blank before _ blank,
        wordsOf_word word rest nonempty first.solid first.ends, ← List.append_assoc]
      exact .word before word rest _ blank nonempty first.solid first.ends
        (inductionHypothesis _ shorter rest rfl)

/-- The words of a text are those that it is split into. -/
theorem splits_iff (text : List Char) (words : List (List Char)) :
    Splits text words ↔ words = wordsOf text := by
  constructor
  · intro splits
    induction splits with
    | nothing text blank =>
      have none := wordsOf_append_blank text [] blank
      rwa [List.append_nil, wordsOf_nil, eq_comm] at none
    | word before word rest words blank nonempty solid ends others inductionHypothesis =>
      rw [List.append_assoc, wordsOf_append_blank before _ blank,
        wordsOf_word word rest nonempty solid ends, inductionHypothesis]
  · rintro rfl
    exact splits_wordsOf text

end BuildWatch.Text
