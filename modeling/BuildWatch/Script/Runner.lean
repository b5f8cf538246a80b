import BuildWatch.Script.Builtin
import BuildWatch.Script.Reader

/-!
# Running shell scripts

Steps are run in order, each under the condition that the one in front of it states.
Every call counts down, and a script that would not come to an end halts like one
that sleeps.
-/

namespace BuildWatch.Script

/-- The value of a sum of numbers, read from left to right. -/
def sumOf (lookup : String → String) (text : String) : Int :=
  let number := fun (part : List Char) =>
    let name := String.ofList (part.filter fun c => c != ' ' && c != '$')
    let value := if name.toList.all Char.isDigit then name else lookup name
    ((Text.numeral? 1000000000 value.toList).getD 0 : Int)
  let (total, sign, part) := text.toList.foldl
    (fun ((total, sign, part) : Int × Int × List Char) c =>
      if c = '+' then (total + sign * number part.reverse, 1, [])
      else if c = '-' then (total + sign * number part.reverse, -1, [])
      else (total, sign, c :: part)) (0, 1, [])
  total + sign * number part.reverse

namespace Run

/-- Lead streams elsewhere. -/
def redirectStream (stream : Nat) (sink : Sink) : Run Unit :=
  modify fun shell =>
    if stream = 1 then { shell with first := sink }
    else if stream = 2 then { shell with second := sink }
    else if stream = 0 then { shell with input := [], inputOpen := false }
    else shell

/-- Run something that may leave a loop. The result says whether the loop goes on. -/
def inLoop (action : Run Unit) : Run Bool :=
  try
    action
    return true
  catch
    | .leave => return false
    | .again => return true
    | other => throw other

/-- Run something in the background. What it waits for does not matter. -/
def inBackground (action : Run Unit) : Run Unit := do
  modify fun shell => { shell with held := true }
  let before ← get
  try action
  catch _ => pure ()
  modify fun shell =>
    { shell with
      input := before.input
      inputOpen := before.inputOpen
      first := before.first
      second := before.second
      captured := if before.first = .captured then shell.captured else before.captured
      bindings := before.bindings }
  setStatus 0

mutual

/-- Put a piece of a word in. -/
def expandPiece : Nat → Fields → Piece → Run Fields
  | 0, _, _ => throw .asleep
  | left + 1, fields, piece =>
    match piece with
    | .text value => return fields.append value
    | .variable "@" true => do return fields.appendAll (← get).arguments
    | .variable name quoted => do
      let value ← valueOf name
      return if quoted then fields.append value else fields.split value
    | .output body quoted => do
      let bytes ← capture (runSteps left body)
      let value := String.ofList ((textOf bytes).toList.reverse.dropWhile (· = '\n')).reverse
      return if quoted then fields.append value else fields.split value
    | .sum expression => do
      let text ← expandWhole left expression
      let shell ← get
      return fields.append (toString (sumOf (fun name => (shell.bindings.lookup name).getD "") text))

/-- Put all pieces of a word in. -/
def expandPieces : Nat → Fields → List Piece → Run Fields
  | 0, _, _ => throw .asleep
  | _ + 1, fields, [] => return fields
  | left + 1, fields, piece :: rest => do
    expandPieces left (← expandPiece left fields piece) rest

/-- The text of a word that is not split. -/
def expandWhole : Nat → List Piece → Run String
  | 0, _ => throw .asleep
  | left + 1, pieces => do
    let fields ← expandPieces left {} pieces
    return " ".intercalate fields.toList

/-- The fields of words. -/
def expandAll : Nat → List (List Piece) → Run (List String)
  | 0, _ => throw .asleep
  | _ + 1, [] => return []
  | left + 1, pieces :: rest => do
    let fields ← expandPieces left {} pieces
    return fields.toList ++ (← expandAll left rest)

/-- Lead streams elsewhere as redirections say. -/
def redirect : Nat → List Redirection → Run Unit
  | 0, _ => throw .asleep
  | _ + 1, [] => pure ()
  | left + 1, redirection :: rest => do
    match redirection with
    | .toFile stream appends name =>
      match ← expandWhole left name with
      | "/dev/null" => redirectStream stream .nowhere
      | "/dev/stdout" => redirectStream stream (← get).first
      | "/dev/stderr" => redirectStream stream (← get).second
      | name =>
        unless appends do
          modify fun shell => shell.writeFile ⟨bytesOf name⟩ []
        redirectStream stream (.file ⟨bytesOf name⟩)
    | .fromFile name =>
      match (← get).files.readBytes ⟨bytesOf (← expandWhole left name)⟩ with
      | .ok bytes => modify fun shell => { shell with input := bytes.toList, inputOpen := false }
      | .error _ => redirectStream 0 .closed
    | .toStream stream target =>
      let shell ← get
      redirectStream stream (if target = 2 then shell.second else shell.first)
    | .closed stream => redirectStream stream .closed
    redirect left rest

/-- Run something with streams led elsewhere meanwhile. -/
def redirected : Nat → List Redirection → Run Unit → Run Unit
  | 0, _, _ => throw .asleep
  | left + 1, redirections, action => do
    let before ← get
    redirect left redirections
    try action
    catch halt =>
      modify fun shell => { shell with first := before.first, second := before.second }
      throw halt
    let fromFile := redirections.any fun
      | .fromFile _ => true
      | .closed 0 => true
      | _ => false
    modify fun shell =>
      { shell with
        first := before.first
        second := before.second
        input := if fromFile then before.input else shell.input
        inputOpen := if fromFile then before.inputOpen else shell.inputOpen }

/-- Run another shell, on a text or on a file. -/
def runShell : Nat → List String → Run Unit
  | 0, _ => throw .asleep
  | left + 1, words => do
    let before ← get
    let (text, name, arguments) ← match words with
      | "-c" :: text :: rest => pure (some text, rest.head?.getD "sh", rest.drop 1)
      | file :: rest =>
        match before.files.readBytes ⟨bytesOf file⟩ with
        | .ok bytes => pure (some (textOf bytes.toList), file, rest)
        | .error _ =>
          complain ("sh: 0: cannot open " ++ file ++ ": No such file")
          pure (none, file, rest)
      | [] =>
        let shell ← get
        set { shell with input := [] }
        pure (some (textOf shell.input), "sh", [])
    match text.map read? with
    | none => throw (.ended (.exited 2))
    | some none =>
      complain (name ++ ": 1: Syntax error")
      throw (.ended (.exited 2))
    | some (some steps) =>
      set { ← get with name := name, arguments := arguments }
      runSteps left steps
      throw (.ended (.exited (← get).status))

/-- Run a command of some name. -/
def runNamed : Nat → String → List String → Run Unit
  | 0, _, _ => throw .asleep
  | left + 1, name, words => do
    let short := ((Path.fileName? ⟨bytesOf name⟩).map textOf).getD name
    if short = "sh" || short = "dash" || short = "bash" then
      let before ← get
      try runShell left words
      catch
        | .ended (.exited status) =>
          modify fun shell =>
            { shell with
              name := before.name
              arguments := before.arguments
              bindings := before.bindings
              first := before.first
              second := before.second
              status := status }
        | other => throw other
    else if !(← builtin short words) then
      complain ("sh: 1: " ++ name ++ ": not found")
      setStatus 127

/-- Run a command. -/
def runCommand : Nat → Command → Run Unit
  | 0, _ => throw .asleep
  | left + 1, command => do
    match command with
    | .simple bindings words redirections =>
      let before := (← get).bindings
      for (name, pieces) in bindings do
        bindVariable name (← expandWhole left pieces)
      match ← expandAll left words with
      | [] =>
        redirected left redirections (pure ())
        if words.isEmpty && !bindings.isEmpty then setStatus 0
      | ["exec"] => redirect left redirections
      | "exec" :: name :: rest =>
        redirect left redirections
        runNamed left name rest
        throw (.ended (.exited (← get).status))
      | name :: rest =>
        redirected left redirections (runNamed left name rest)
        for (name, _) in bindings do
          modify fun shell =>
            { shell with
              bindings := before.filter (·.1 = name) ++ shell.bindings.filter (·.1 ≠ name) }
    | .group body redirections => redirected left redirections (runSteps left body)
    | .inner body redirections => redirected left redirections (isolated (runSteps left body))
    | .loop whileFails condition body => runLoop left whileFails condition body
    | .branch condition body other =>
      runSteps left condition
      if (← get).status = 0 then runSteps left body
      else
        setStatus 0
        runSteps left other
    | .each name words body =>
      let values ← expandAll left words
      setStatus 0
      runEach left name values body
    | .choose word arms =>
      let text ← expandWhole left word
      setStatus 0
      runArms left text arms

/-- Run a loop over values. -/
def runEach : Nat → String → List String → List Step → Run Unit
  | 0, _, _, _ => throw .asleep
  | _ + 1, _, [], _ => pure ()
  | left + 1, name, value :: rest, body => do
    bindVariable name value
    if ← inLoop (runSteps left body) then runEach left name rest body

/-- Run a loop with a condition. -/
def runLoop : Nat → Bool → List Step → List Step → Run Unit
  | 0, _, _, _ => throw .asleep
  | left + 1, whileFails, condition, body => do
    runSteps left condition
    if ((← get).status = 0) != whileFails then
      if ← inLoop (runSteps left body) then runLoop left whileFails condition body
    else setStatus 0

/-- Run the first arm with a pattern that fits. -/
def runArms : Nat → String → List (List (List Piece) × List Step) → Run Unit
  | 0, _, _ => throw .asleep
  | _ + 1, _, [] => pure ()
  | left + 1, text, (found, body) :: rest => do
    let texts ← found.mapM (expandWhole left)
    if texts.any fun found => fitsPattern found.toList text.toList then runSteps left body
    else runArms left text rest

/-- Run commands with pipes between them. -/
def runPipe : Nat → List Command → Run Unit
  | 0, _ => throw .asleep
  | _ + 1, [] => pure ()
  | left + 1, [command] => runCommand left command
  | left + 1, command :: rest => do
    let bytes ← capture (runCommand left command)
    withInput bytes (runPipe left rest)

/-- Run steps in order. A step is skipped when the one in front of it asks for it. -/
def runSteps : Nat → List Step → Run Unit
  | 0, _ => throw .asleep
  | _ + 1, [] => pure ()
  | left + 1, .pipeline negated commands joint :: rest => do
    let run := do
      runPipe left commands
      if negated then setStatus (if (← get).status = 0 then 1 else 0)
    if joint = .background then inBackground run else run
    let status := (← get).status
    if (joint = .onSuccess && status ≠ 0) || (joint = .onFailure && status = 0) then
      runSteps left (skipped (status = 0) rest)
    else runSteps left rest
where
  /-- The steps behind those that a status leaves out. -/
  skipped (succeeded : Bool) : List Step → List Step
    | .pipeline _ _ .onSuccess :: rest => if succeeded then rest else skipped succeeded rest
    | .pipeline _ _ .onFailure :: rest => if succeeded then skipped succeeded rest else rest
    | _ :: rest => rest
    | [] => []

end

end Run
end BuildWatch.Script
