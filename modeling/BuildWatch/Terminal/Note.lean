/-!
# What is told to the user

Every step of the program says what it wants shown as a list of notes, in order,
and prints nothing itself. A log line belongs to a topic. A detail is a log line
that only shows in verbose mode, and verbose mode is itself switched by a note,
because it is known only after the arguments and the settings were read. A status
block takes the place of the one before it. A plain line is output of its own.
-/

namespace BuildWatch.Terminal

/-- What a status block reports. -/
inductive Mark where
  | success
  | failure
  | caution
  deriving DecidableEq, Repr

/-- One thing to show. -/
inductive Note where
  | log (topic text : String)
  | detail (topic text : String)
  | verbosity (on : Bool)
  | status (mark : Mark) (text : String)
  | plain (text : String)
  deriving DecidableEq, Repr

/-- A summary with the detail below it, if there is any. -/
def withDetail (summary detail : String) : String :=
  if detail.isEmpty then summary else summary ++ "\n" ++ detail

/-- How many lines a text takes up. -/
def height (text : String) : Nat := text.toList.count '\n' + 1

end BuildWatch.Terminal

namespace BuildWatch

/-- A value together with the notes that were made on the way to it. -/
structure Noted (α : Type) where
  value : α
  notes : List Terminal.Note := []

namespace Noted

/-- The value alone, with nothing to show. -/
def quiet {α : Type} (value : α) : Noted α := ⟨value, []⟩

/-- Go on with the value; the notes of the second step come after those of the first. -/
def andThen {α β : Type} (first : Noted α) (next : α → Noted β) : Noted β :=
  let second := next first.value
  ⟨second.value, first.notes ++ second.notes⟩

instance : Monad Noted where
  pure := quiet
  bind := andThen

/-- Show one thing. -/
def tell (note : Terminal.Note) : Noted Unit := ⟨(), [note]⟩

/-- Show a log line. -/
def log (topic text : String) : Noted Unit := tell (.log topic text)

/-- Show a log line in verbose mode. -/
def detail (topic text : String) : Noted Unit := tell (.detail topic text)

/-- Show several things. -/
def tellAll (notes : List Terminal.Note) : Noted Unit := ⟨(), notes⟩

end Noted
end BuildWatch
