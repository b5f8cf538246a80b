/-!
# Bytes of texts

A file name is a list of bytes. Nearly always they are those of a text in UTF-8, but a
disk holds any others as well. Such a name has no text; when it is shown, every broken
character in it is shown as one mark: as many bytes as could have begun a character, or
a single byte that begins none.
-/

namespace BuildWatch

/-- Bytes that need not be those of a text. -/
abbrev Bytes := List UInt8

namespace Text

/-- The bytes of a text. -/
def bytes (text : String) : Bytes := text.toList.flatMap String.utf8EncodeChar

/-- The text that bytes are those of. -/
def ofBytes? (bytes : Bytes) : Option String := String.fromUTF8? ⟨bytes.toArray⟩

/-- The mark that a broken character is shown as. -/
def brokenMark : Char := '\uFFFD'

/-- A character of several bytes that was begun: its value so far, how many bytes are
missing, and between which bounds the next one lies. -/
structure Begun where
  value : Nat
  missing : Nat
  least : UInt8 := 0x80
  greatest : UInt8 := 0xBF

/-- What a byte begins that is no character by itself. The bounds of the second byte leave
out values that a shorter character has, and those that no character has. -/
def begun? (byte : UInt8) : Option Begun :=
  if byte < 0xC2 then none
  else if byte < 0xE0 then some { value := byte.toNat - 0xC0, missing := 1 }
  else if byte = 0xE0 then some { value := 0, missing := 2, least := 0xA0 }
  else if byte = 0xED then some { value := 0xD, missing := 2, greatest := 0x9F }
  else if byte < 0xF0 then some { value := byte.toNat - 0xE0, missing := 2 }
  else if byte = 0xF0 then some { value := 0, missing := 3, least := 0x90 }
  else if byte < 0xF4 then some { value := byte.toNat - 0xF0, missing := 3 }
  else if byte = 0xF4 then some { value := 4, missing := 3, greatest := 0x8F }
  else none

/-- What is shown of a byte behind a whole character, and what it begins. -/
def opening (byte : UInt8) : List Char × Option Begun :=
  if byte < 0x80 then ([Char.ofNat byte.toNat], none)
  else
    match begun? byte with
    | some begun => ([], some begun)
    | none => ([brokenMark], none)

/-- What is shown of bytes behind a character that was begun, or behind a whole one. -/
def shownFrom : Option Begun → Bytes → List Char
  | none, [] => []
  | some _, [] => [brokenMark]
  | none, byte :: rest => (opening byte).1 ++ shownFrom (opening byte).2 rest
  | some begun, byte :: rest =>
    if begun.least ≤ byte ∧ byte ≤ begun.greatest then
      let value := 0x40 * begun.value + (byte.toNat - 0x80)
      if begun.missing = 1 then Char.ofNat value :: shownFrom none rest
      else shownFrom (some { value := value, missing := begun.missing - 1 }) rest
    else brokenMark :: (opening byte).1 ++ shownFrom (opening byte).2 rest

/-- How bytes are shown: as their text, or with a mark for every broken character. -/
def shown (bytes : Bytes) : String := (ofBytes? bytes).getD (String.ofList (shownFrom none bytes))

/-- The bytes of a text are those that it is stored as. -/
theorem toByteArray_eq (text : String) : text.toByteArray = ⟨(bytes text).toArray⟩ := by
  have stored : (String.ofList text.toList).toByteArray = (bytes text).toByteArray :=
    String.toByteArray_ofList
  rw [String.ofList_toList] at stored
  rw [stored]
  exact ByteArray.ext List.data_toByteArray

/-- A text is read from bytes exactly when they are its bytes. -/
theorem ofBytes?_eq_some_iff (bytes : Bytes) (text : String) :
    ofBytes? bytes = some text ↔ bytes = Text.bytes text := by
  have stored := toByteArray_eq text
  constructor
  · intro read
    rw [ofBytes?, String.fromUTF8?] at read
    split at read
    · obtain rfl := Option.some.inj read
      exact Array.mk.inj (ByteArray.mk.inj stored)
    · exact absurd read (by simp)
  · rintro rfl
    rw [ofBytes?, ← stored, String.fromUTF8?, dif_pos text.isValidUTF8]
    rfl

@[simp] theorem ofBytes?_bytes (text : String) : ofBytes? (bytes text) = some text :=
  (ofBytes?_eq_some_iff _ _).mpr rfl

@[simp] theorem bytes_inj (text other : String) : bytes text = bytes other ↔ text = other := by
  constructor
  · intro same
    have read := ofBytes?_bytes text
    rwa [same, ofBytes?_bytes, Option.some_inj, eq_comm] at read
  · rintro rfl
    rfl

@[simp] theorem shown_bytes (text : String) : shown (bytes text) = text := by
  rw [shown, ofBytes?_bytes, Option.getD_some]

end Text

instance : Coe String Bytes := ⟨Text.bytes⟩

example : Text.shown [0x2E, 0xFF, 0xC3, 0xA9, 0xE2, 0x82] = ".\uFFFDé\uFFFD" := by decide +kernel

end BuildWatch
