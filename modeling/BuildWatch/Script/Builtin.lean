import BuildWatch.Path.Order
import BuildWatch.Script.Field
import BuildWatch.Script.Shell

/-!
# The commands that scripts use

Some commands belong to the shell, and others are programs that every system has.
For a worker they differ in nothing. Each says with a status whether it succeeded.
-/

namespace BuildWatch.Script

/-- The number of a signal's name. -/
def signalNumber? (name : String) : Option Nat :=
  let short := if name.startsWith "SIG" then String.ofList (name.toList.drop 3) else name
  match short with
  | "HUP" => some 1
  | "INT" => some 2
  | "QUIT" => some 3
  | "ABRT" => some 6
  | "KILL" => some 9
  | "USR1" => some 10
  | "SEGV" => some 11
  | "USR2" => some 12
  | "PIPE" => some 13
  | "ALRM" => some 14
  | "TERM" => some 15
  | _ => Text.numeral? 64 short.toList

/-- The whole seconds of a duration. -/
def wholeSeconds (text : String) : Nat :=
  (Text.numeral? 1000000 (text.toList.takeWhile Char.isDigit)).getD 0

/-- The characters that a set of `tr` lists. -/
def charactersOf (text : String) : List Char :=
  (textOf (unescaped text.toList)).toList

namespace Run

/-- Send a signal to a process. -/
def signal (number : Nat) (target : String) : Run Unit := do
  if target = ownNumber then throw (.ended (.killed number))
  else if target = parentNumber then
    if number = 2 then modify fun shell => { shell with interrupts := shell.interrupts + 1 }
  setStatus 0

/-- Send signals as the words of a command say. -/
def kill : List String → Run Unit
  | ["-s", name, target] => signal ((signalNumber? name).getD 15) target
  | [word, target] =>
    match word.toList with
    | '-' :: name => signal ((signalNumber? (String.ofList name)).getD 15) target
    | _ => signal 15 word
  | [target] => signal 15 target
  | _ => setStatus 1

/-- Give the fields of a line to variables; the last one takes what is left. -/
def bindFields : List String → List Char → Run Unit
  | [], _ => pure ()
  | [last], text => bindVariable last (String.ofList text)
  | name :: names, text => do
    bindVariable name (String.ofList (text.takeWhile (!isSeparator ·)))
    bindFields names ((text.dropWhile (!isSeparator ·)).dropWhile isSeparator)

/-- Read a line into variables. It is not split when the separators are set to none. -/
def readInto (words : List String) : Run Unit := do
  let raw := words.head? == some "-r"
  let names := if raw then words.drop 1 else words
  match ← takeLine with
  | none =>
    bindFields names []
    setStatus 1
  | some bytes =>
    let text := if raw then textOf bytes else String.ofList ((textOf bytes).toList.filter (· ≠ '\\'))
    if (← get).bindings.lookup "IFS" = some "" then bindVariable (names.head?.getD "") text
    else bindFields names (stripped text).toList
    setStatus 0

/-- Put files out, or the input when none is named. -/
def cat : List String → Run Unit
  | [] => do
    takeAll put
    setStatus 0
  | names => do
    setStatus 0
    for name in names do
      match (← get).files.readBytes ⟨bytesOf name⟩ with
      | .ok bytes => put bytes.toList
      | .error fault =>
        complain ("cat: " ++ name ++ ": " ++ fault.reason)
        setStatus 1

/-- Put the first lines of the input out. -/
def head : Nat → Run Unit
  | 0 => setStatus 0
  | left + 1 => do
    match ← takeLine with
    | none => setStatus 0
    | some line =>
      put (line ++ [10])
      head left

/-- Put the visible names of a folder out. -/
def list (folder : String) : Run Unit := do
  match (← get).files.list ⟨bytesOf folder⟩ with
  | .ok entries =>
    for name in (Path.sort entries).filterMap Path.fileName? do
      if name.head? ≠ some Path.dot then put (name ++ [10])
    setStatus 0
  | .error fault =>
    complain ("ls: cannot access '" ++ folder ++ "': " ++ fault.reason)
    setStatus 2

/-- Drop or exchange characters of the input. -/
def translate (words : List String) : Run Unit := do
  match words with
  | ["-d", drops] =>
    let drops := charactersOf drops
    takeAll fun bytes => put (bytesOf (String.ofList ((textOf bytes).toList.filter (!drops.contains ·))))
  | [old, new] =>
    let pairs := (charactersOf old).zip (charactersOf new)
    takeAll fun bytes =>
      put (bytesOf (String.ofList ((textOf bytes).toList.map fun c => (pairs.lookup c).getD c)))
  | _ => pure ()
  setStatus 0

/-- Whether a test holds. -/
def holds (words : List String) : Run Bool := do
  let files := (← get).files
  let number := fun (text : String) => (Text.numeral? 1000000000 text.toList).getD 0
  return match words with
    | ["-n", text] => !text.isEmpty
    | ["-z", text] => text.isEmpty
    | ["-e", name] => files.has ⟨bytesOf name⟩
    | ["-f", name] => (files.readBytes ⟨bytesOf name⟩).isOk
    | ["-d", name] => (files.list ⟨bytesOf name⟩).isOk
    | [left, "=", right] => left = right
    | [left, "!=", right] => left ≠ right
    | [left, "-eq", right] => number left = number right
    | [left, "-ne", right] => number left ≠ number right
    | [left, "-lt", right] => number left < number right
    | [left, "-le", right] => number left ≤ number right
    | [left, "-gt", right] => number left > number right
    | [left, "-ge", right] => number left ≥ number right
    | ["!", text] => text.isEmpty
    | [text] => !text.isEmpty
    | _ => false

/-- Put words out with blanks between them. -/
def echo (words : List String) : Run Unit := do
  match words with
  | "-n" :: rest => put (unescaped (" ".intercalate rest).toList)
  | _ => put (unescaped (" ".intercalate words).toList ++ [10])
  setStatus 0

/-- Run one of the commands that need no script to be run. The result says whether
there is one of that name. -/
def builtin (name : String) (words : List String) : Run Bool := do
  match name with
  | ":" => setStatus 0
  | "true" => setStatus 0
  | "false" => setStatus 1
  | "read" => readInto words
  | "echo" => echo words
  | "printf" =>
    put (format (words.head?.getD "") (words.drop 1))
    setStatus 0
  | "cat" => cat words
  | "head" =>
    head (match words with
      | ["-n", number] => (Text.numeral? 1000000 number.toList).getD 10
      | [number] => (Text.numeral? 1000000 (number.toList.drop 1)).getD 10
      | _ => 10)
  | "ls" => list (words.head?.getD ".")
  | "pwd" =>
    put ((← get).files.currentPath.bytes ++ [10])
    setStatus 0
  | "tr" => translate words
  | "kill" => kill words
  | "sleep" =>
    if 1 ≤ wholeSeconds (words.head?.getD "") then throw .asleep
    setStatus 0
  | "exit" =>
    throw (.ended (.exited ((Text.numeral? 255 (words.head?.getD "").toList).getD (← get).status)))
  | "break" => throw .leave
  | "continue" => throw .again
  | "shift" =>
    modify fun shell => { shell with arguments := shell.arguments.drop 1 }
    setStatus 0
  | "cd" =>
    match (← get).files.enter ⟨bytesOf (words.head?.getD "")⟩ with
    | .ok files =>
      modify fun shell => { shell with files := files }
      setStatus 0
    | .error _ =>
      complain ("sh: 1: cd: can't cd to " ++ words.head?.getD "")
      setStatus 2
  | "test" => setStatus (if ← holds words then 0 else 1)
  | "[" => setStatus (if ← holds words.dropLast then 0 else 1)
  | "set" =>
    match words with
    | "--" :: values => modify fun shell => { shell with arguments := values }
    | _ => pure ()
    setStatus 0
  | "trap" => setStatus 0
  | "wait" => setStatus 0
  | "umask" => setStatus 0
  | _ => return false
  return true

end Run
end BuildWatch.Script
