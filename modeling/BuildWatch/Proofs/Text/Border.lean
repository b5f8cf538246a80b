import BuildWatch.Text.Encoding
import Mathlib.Data.List.Basic

/-!
# Where texts can be cut

A character beyond ASCII is stored as bytes that are all beyond ASCII. So an ASCII byte in a text
is a character of its own, and the bytes on both sides of it are those of texts again. Names are
cut from paths at slashes, hence the names of a path that is a text are texts.
-/

namespace BuildWatch.Text

/-- An ASCII byte is stored for no other character than itself. -/
theorem encoded_ascii (c : Char) (byte : UInt8) (ascii : byte < 0x80)
    (stored : byte ∈ String.utf8EncodeChar c) : String.utf8EncodeChar c = [byte] := by
  rw [UInt8.lt_iff_toNat_lt, UInt8.toNat_ofNat] at ascii
  rw [String.utf8EncodeChar] at stored ⊢
  split_ifs at stored ⊢
  · rw [List.mem_singleton.mp stored]
  all_goals
    exfalso
    simp only [List.mem_cons, List.not_mem_nil, or_false] at stored
    rcases stored with rfl | rfl | rfl | rfl <;> simp at ascii <;> omega

theorem bytes_append (text other : String) : bytes (text ++ other) = bytes text ++ bytes other := by
  rw [bytes, String.toList_append, List.flatMap_append, bytes, bytes]

theorem bytes_ofList (chars : List Char) :
    bytes (String.ofList chars) = chars.flatMap String.utf8EncodeChar := by
  rw [bytes, String.toList_ofList]

section Ascii

variable {c : Char} {byte : UInt8} (ascii : byte < 0x80) (own : String.utf8EncodeChar c = [byte])

include ascii own

/-- The byte of an ASCII character is in what is stored for a character only if they are the same. -/
theorem mem_encoded_iff (other : Char) : byte ∈ String.utf8EncodeChar other ↔ other = c := by
  constructor
  · intro stored
    have same : bytes (String.ofList [other]) = bytes (String.ofList [c]) := by
      rw [bytes_ofList, bytes_ofList, List.flatMap_singleton, List.flatMap_singleton, own,
        encoded_ascii other byte ascii stored]
    exact List.singleton_inj.mp (String.ofList_inj.mp ((bytes_inj _ _).mp same))
  · rintro rfl
    rw [own]
    exact List.mem_singleton_self byte

/-- A text holds an ASCII character exactly when its bytes hold the one of the character. -/
theorem mem_bytes_iff (text : String) : byte ∈ bytes text ↔ c ∈ text.toList := by
  simp only [bytes, List.mem_flatMap, mem_encoded_iff ascii own, exists_eq_right]

/-- A text starts with an ASCII character exactly when its bytes start with the one of it. -/
theorem head?_bytes_iff (text : String) :
    (bytes text).head? = some byte ↔ text.toList.head? = some c := by
  rw [bytes]
  cases text.toList with
  | nil => simp
  | cons first rest =>
    rw [List.flatMap_cons, List.head?_append_of_ne_nil _ String.utf8EncodeChar_ne_nil, List.head?_cons,
      Option.some_inj, ← mem_encoded_iff ascii own]
    constructor
    · exact List.mem_of_head?
    · intro stored
      rw [encoded_ascii first byte ascii stored, List.head?_singleton]

end Ascii

/-- Bytes that are those of a text. -/
def IsText (stored : Bytes) : Prop := ∃ text, stored = bytes text

/-- The bytes around an ASCII byte of a text are those of texts. -/
theorem IsText.cut (before after : Bytes) (byte : UInt8) (ascii : byte < 0x80)
    (whole : IsText (before ++ byte :: after)) : IsText before ∧ IsText after := by
  obtain ⟨text, whole⟩ := whole
  rw [bytes] at whole
  generalize text.toList = chars at whole
  induction chars generalizing before with
  | nil => simp at whole
  | cons c rest inductionHypothesis =>
    rw [List.flatMap_cons, eq_comm, List.append_eq_append_iff] at whole
    rcases whole with ⟨more, rfl, others⟩ | ⟨more, front, others⟩
    · -- The character is in front of the byte.
      obtain ⟨⟨text, rfl⟩, back⟩ := inductionHypothesis more others.symm
      refine ⟨⟨String.ofList [c] ++ text, ?_⟩, back⟩
      rw [bytes_append, bytes_ofList, List.flatMap_singleton]
    · cases more with
      | nil =>
        rw [List.append_nil] at front
        obtain ⟨-, back⟩ := inductionHypothesis [] others
        exact ⟨⟨String.ofList [c], by rw [bytes_ofList, List.flatMap_singleton, front]⟩, back⟩
      | cons first others' =>
        obtain ⟨rfl, behind⟩ := List.cons_eq_cons.mp others
        rw [encoded_ascii c byte ascii (by rw [front]; simp)] at front
        obtain ⟨rfl, rfl⟩ : before = [] ∧ others' = [] := by
          cases before <;> simp_all
        exact ⟨⟨"", rfl⟩, ⟨String.ofList rest, by rw [behind, bytes_ofList]; rfl⟩⟩

/-- Texts with an ASCII character in between are a text. -/
theorem IsText.join (before after : Bytes) (front : IsText before) (back : IsText after) :
    IsText (before ++ 0x2F :: after) := by
  obtain ⟨text, rfl⟩ := front
  obtain ⟨other, rfl⟩ := back
  exact ⟨text ++ ("/" ++ other), by rw [bytes_append, bytes_append]; rfl⟩

end BuildWatch.Text
