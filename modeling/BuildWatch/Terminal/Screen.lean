import BuildWatch.Terminal.Note
import BuildWatch.Text.Numeral

/-!
# Printing notes

A log line clears the line it starts on, and detaches the status block above it.
A status block that is still attached is erased by moving the cursor up over its
lines and clearing downwards; the new block then stands in its place. The cursor
moves up by at most 65535 lines.
-/

namespace BuildWatch.Terminal

/-- What printing depends on: verbose mode, and the height of the status block
that the next one replaces, zero when there is none. -/
structure Screen where
  verbose : Bool := false
  attached : Nat := 0
  deriving DecidableEq, Repr

/-- The character that starts a control sequence. -/
def escape : String := String.singleton (Char.ofNat 0x1B)

/-- A control sequence. -/
def control (sequence : String) : String := escape ++ "[" ++ sequence

/-- The colour of a topic. Topics are compared without regard to ASCII case. -/
def topicColour (topic : String) : String :=
  match topic.toLower with
  | "worker" => "94m"
  | "watch" => "92m"
  | "walk" => "96m"
  | "error" => "91m"
  | _ => "93m"

/-- The label in front of a log line. -/
def label (topic : String) : String :=
  control "1m" ++ control (topicColour topic) ++ "[" ++ topic ++ "]" ++ control "39m" ++ control "0m"

/-- The coloured symbol of a status block. -/
def Mark.symbol : Mark → String
  | .success => control "32m" ++ "✓" ++ control "39m"
  | .failure => control "31m" ++ "✗" ++ control "39m"
  | .caution => control "33m" ++ "⚠" ++ control "39m"

/-- The furthest the cursor moves up in one sequence. -/
def reach : Nat := 65535

namespace Screen

/-- The text of a log line. -/
def logLine (topic text : String) : String := control "K" ++ label topic ++ " " ++ text ++ "\n"

/-- The text of a status block, with the erasing of the attached one in front. -/
def block (attached : Nat) (time : String) (mark : Mark) (text : String) : String :=
  (if attached = 0 then "" else control (toString (min attached reach) ++ "A") ++ control "J") ++
    control "2m" ++ "[" ++ time ++ "]" ++ control "0m" ++ " " ++ mark.symbol ++ " " ++ text ++ "\n"

/-- Print one note at a time of day. -/
def print (time : String) (screen : Screen) : Note → Screen × String
  | .log topic text => ({ screen with attached := 0 }, logLine topic text)
  | .detail topic text =>
    if screen.verbose then ({ screen with attached := 0 }, logLine topic text) else (screen, "")
  | .verbosity on => ({ screen with verbose := on }, "")
  | .status mark text =>
    ({ screen with attached := height text }, block screen.attached time mark text)
  | .plain text => (screen, text ++ "\n")

/-- Print notes in order, all at one time of day. -/
def printAll (time : String) (screen : Screen) : List Note → Screen × String
  | [] => (screen, "")
  | note :: rest =>
    let (next, text) := print time screen note
    let (last, more) := printAll time next rest
    (last, text ++ more)

end Screen
end BuildWatch.Terminal
