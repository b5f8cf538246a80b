/-!
# Why a file operation fails

The causes are those of the system calls a lookup or a read can end in, and the
one of decoding text. Each has one wording, and most have a number.
-/

namespace BuildWatch.Files

/-- The cause of a failed file operation. -/
inductive Fault where
  | missing
  | notFolder
  | isFolder
  | tooManyLinks
  | nameTooLong
  | exists
  | notEmpty
  | denied
  | notProgram
  | zeroByte
  | notText
  deriving DecidableEq, Repr

namespace Fault

/-- The wording of a cause. -/
def reason : Fault → String
  | .missing => "No such file or directory"
  | .notFolder => "Not a directory"
  | .isFolder => "Is a directory"
  | .tooManyLinks => "Too many levels of symbolic links"
  | .nameTooLong => "File name too long"
  | .exists => "File exists"
  | .notEmpty => "Directory not empty"
  | .denied => "Permission denied"
  | .notProgram => "Exec format error"
  | .zeroByte => "file name contained an unexpected NUL byte"
  | .notText => "stream did not contain valid UTF-8"

/-- The number that the system has for a cause, if it is one of the system's. -/
def number? : Fault → Option Nat
  | .missing => some 2
  | .notFolder => some 20
  | .isFolder => some 21
  | .tooManyLinks => some 40
  | .nameTooLong => some 36
  | .exists => some 17
  | .notEmpty => some 39
  | .denied => some 13
  | .notProgram => some 8
  | .zeroByte => none
  | .notText => none

/-- The wording of a cause with its number. -/
def message (fault : Fault) : String :=
  match fault.number? with
  | some number => fault.reason ++ " (os error " ++ toString number ++ ")"
  | none => fault.reason

end Fault
end BuildWatch.Files
