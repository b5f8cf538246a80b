/-!
# Shell scripts

A worker is often a small shell script around a compiler. This is the part of the
shell's language that such scripts use: commands with quoted words, variables and
the output of other commands, pipes, redirections, loops and branches.
-/

namespace BuildWatch.Script

/-- What follows a step: the next one in any case, only after success, only after
failure, or at once because the step goes on in the background. -/
inductive Joint where
  | next
  | onSuccess
  | onFailure
  | background
  deriving DecidableEq, Repr

mutual

/-- A piece of a word. Pieces outside of quotes are split at blanks when they are
put in. -/
inductive Piece where
  | text (value : String)
  | variable (name : String) (quoted : Bool)
  | output (body : List Step) (quoted : Bool)
  | sum (expression : List Piece)

/-- Where a stream is led: to a file, whose content stays if it is appended to, from a file,
to where another stream leads, or nowhere because it is closed. -/
inductive Redirection where
  | toFile (stream : Nat) (appends : Bool) (name : List Piece)
  | fromFile (name : List Piece)
  | toStream (stream target : Nat)
  | closed (stream : Nat)

/-- A command. What an inner shell does to variables stays there, and it may end by
itself. -/
inductive Command where
  | simple (bindings : List (String × List Piece)) (words : List (List Piece))
      (redirections : List Redirection)
  | group (body : List Step) (redirections : List Redirection)
  | inner (body : List Step) (redirections : List Redirection)
  | loop (whileFails : Bool) (condition body : List Step)
  | branch (condition body other : List Step)
  | each (name : String) (words : List (List Piece)) (body : List Step)
  | choose (word : List Piece) (arms : List (List (List Piece) × List Step))

/-- Commands whose output is the input of the next one, and what follows them. A
negated step succeeds when they fail. -/
inductive Step where
  | pipeline (negated : Bool) (commands : List Command) (joint : Joint)

end

end BuildWatch.Script
