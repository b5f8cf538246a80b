import BuildWatch.Script.Syntax

/-!
# Reading shell scripts

The script is read from left to right. Every reader counts down with each call, and
the count that a script starts with is far above the number of calls it can need.
-/

namespace BuildWatch.Script

/-- Whether a character ends a word outside of quotes. -/
def endsWord (c : Char) : Bool := " \t\n;&|<>()".toList.contains c

/-- Whether a character may stand in a variable's name. -/
def isNamePart (c : Char) : Bool := c.isAlphanum || c = '_'

/-- A script without the blanks and the comment it starts with. -/
def dropBlanks : List Char → List Char
  | '\\' :: '\n' :: rest => dropBlanks rest
  | ' ' :: rest => dropBlanks rest
  | '\t' :: rest => dropBlanks rest
  | '#' :: rest => rest.dropWhile (· ≠ '\n')
  | text => text

/-- A script without the blanks, comments, line ends and semicolons it starts with. -/
def dropBreaks : Nat → List Char → List Char
  | 0, text => text
  | left + 1, text =>
    match dropBlanks text with
    | '\n' :: rest => dropBreaks left rest
    | ';' :: ';' :: rest => ';' :: ';' :: rest
    | ';' :: rest => dropBreaks left rest
    | rest => rest

/-- The word that a script starts with, if it is written without quotes. -/
def plainWord (text : List Char) : String := String.ofList (text.takeWhile (!endsWord ·))

/-- A script behind the word it starts with. -/
def dropWord (text : List Char) : List Char := text.dropWhile (!endsWord ·)

/-- The words that end a list of steps. -/
def closers : List String := ["do", "done", "then", "elif", "else", "fi", "esac", "\x7d"]

/-- Whether a script ends, or goes on with something that ends a list of steps. -/
def isClosed (text : List Char) : Bool :=
  match text with
  | [] => true
  | ')' :: _ => true
  | ';' :: ';' :: _ => true
  | _ => closers.contains (plainWord text)

/-- Join the texts that follow each other. -/
def joinTexts : List Piece → List Piece
  | .text first :: rest =>
    match joinTexts rest with
    | .text second :: later => .text (first ++ second) :: later
    | later => .text first :: later
  | piece :: rest => piece :: joinTexts rest
  | [] => []

/-- The name and the rest of a binding, if a word starts one. -/
def binding? (text : List Char) : Option (String × List Char) :=
  let name := text.takeWhile isNamePart
  match name, text.dropWhile isNamePart with
  | first :: _, '=' :: rest =>
    if first.isDigit then none else some (String.ofList name, rest)
  | _, _ => none

mutual

/-- Read what stands behind a dollar sign. -/
def afterDollar : Nat → Bool → List Char → Option (Piece × List Char)
  | 0, _, _ => none
  | left + 1, quoted, text =>
    match text with
    | '(' :: '(' :: rest =>
      match quotedPieces left ')' rest with
      | some (pieces, ')' :: rest) => some (.sum pieces, rest)
      | _ => none
    | '(' :: rest =>
      match steps left rest with
      | some (body, ')' :: rest) => some (.output body quoted, rest)
      | _ => none
    | '\x7b' :: rest =>
      match rest.dropWhile isNamePart with
      | '\x7d' :: behind => some (.variable (String.ofList (rest.takeWhile isNamePart)) quoted, behind)
      | _ => none
    | c :: rest =>
      if c.isAlpha || c = '_' then
        some (.variable (String.ofList (text.takeWhile isNamePart)) quoted, text.dropWhile isNamePart)
      else if c.isDigit || "@*#?$!".toList.contains c then
        some (.variable (String.singleton c) quoted, rest)
      else some (.text "$", text)
    | [] => some (.text "$", [])

/-- Read the pieces up to a closing mark, within double quotes. -/
def quotedPieces : Nat → Char → List Char → Option (List Piece × List Char)
  | 0, _, _ => none
  | left + 1, mark, text =>
    match text with
    | [] => none
    | '\\' :: c :: rest =>
      (quotedPieces left mark rest).map fun (pieces, rest) =>
        if c = '\n' then (pieces, rest)
        else if "$\"\\".toList.contains c || c = Char.ofNat 96 then
          (.text (String.singleton c) :: pieces, rest)
        else (.text (String.ofList ['\\', c]) :: pieces, rest)
    | '$' :: rest =>
      match afterDollar left true rest with
      | none => none
      | some (piece, rest) =>
        (quotedPieces left mark rest).map fun (pieces, rest) => (piece :: pieces, rest)
    | c :: rest =>
      if c = mark then some ([], rest)
      else
        (quotedPieces left mark rest).map fun (pieces, rest) =>
          (.text (String.singleton c) :: pieces, rest)

/-- Read the pieces of a word up to its end. -/
def wordPieces : Nat → List Char → Option (List Piece × List Char)
  | 0, _ => none
  | left + 1, text =>
    let push := fun (first : List Piece) (rest : List Char) =>
      (wordPieces left rest).map fun (pieces, rest) => (first ++ pieces, rest)
    match text with
    | [] => some ([], [])
    | '\'' :: rest =>
      match rest.dropWhile (· ≠ '\'') with
      | _ :: behind => push [.text (String.ofList (rest.takeWhile (· ≠ '\'')))] behind
      | [] => none
    | '"' :: rest =>
      match quotedPieces left '"' rest with
      | none => none
      | some (pieces, rest) => push (if pieces.isEmpty then [.text ""] else pieces) rest
    | '\\' :: '\n' :: rest => push [] rest
    | '\\' :: c :: rest => push [.text (String.singleton c)] rest
    | '$' :: rest =>
      match afterDollar left false rest with
      | none => none
      | some (piece, rest) => push [piece] rest
    | c :: rest => if endsWord c then some ([], text) else push [.text (String.singleton c)] rest

/-- Read a redirection behind the number of its stream. -/
def redirection : Nat → Option Nat → List Char → Option (Redirection × List Char)
  | 0, _, _ => none
  | left + 1, stream, text =>
    let file := fun (make : List Piece → Redirection) (rest : List Char) =>
      (wordPieces left (dropBlanks rest)).map fun (pieces, rest) => (make (joinTexts pieces), rest)
    match text with
    | '>' :: '&' :: '-' :: rest => some (.closed (stream.getD 1), rest)
    | '<' :: '&' :: '-' :: rest => some (.closed (stream.getD 0), rest)
    | '>' :: '&' :: c :: rest =>
      if c.isDigit then some (.toStream (stream.getD 1) (c.toNat - '0'.toNat), rest) else none
    | '>' :: '>' :: rest => file (.toFile (stream.getD 1) true) rest
    | '>' :: rest => file (.toFile (stream.getD 1) false) rest
    | '<' :: rest => file .fromFile rest
    | _ => none

/-- Read the words and redirections of a simple command. -/
def simpleTail : Nat → List Char → Option ((List (List Piece) × List Redirection) × List Char)
  | 0, _ => none
  | left + 1, text =>
    let text := dropBlanks text
    let redirect := fun (stream : Option Nat) (text : List Char) =>
      match redirection left stream text with
      | none => none
      | some (redirection, rest) =>
        (simpleTail left rest).map fun ((words, redirections), rest) =>
          ((words, redirection :: redirections), rest)
    match text with
    | [] => some (([], []), [])
    | '>' :: _ => redirect none text
    | '<' :: _ => redirect none text
    | c :: '>' :: rest =>
      if c.isDigit then redirect (some (c.toNat - '0'.toNat)) ('>' :: rest) else readWord left text
    | c :: _ => if endsWord c then some (([], []), text) else readWord left text

/-- Read one word of a simple command and what follows it. -/
def readWord : Nat → List Char → Option ((List (List Piece) × List Redirection) × List Char)
  | 0, _ => none
  | left + 1, text =>
    match wordPieces left text with
    | none => none
    | some (pieces, rest) =>
      (simpleTail left rest).map fun ((words, redirections), rest) =>
        ((joinTexts pieces :: words, redirections), rest)

/-- Read the bindings in front of a simple command, and the command. -/
def simple : Nat → List Char → Option (Command × List Char)
  | 0, _ => none
  | left + 1, text =>
    let text := dropBlanks text
    match binding? text with
    | some (name, rest) =>
      match wordPieces left rest with
      | none => none
      | some (pieces, rest) =>
        match simple left rest with
        | some (.simple bindings words redirections, rest) =>
          some (.simple ((name, joinTexts pieces) :: bindings) words redirections, rest)
        | _ => none
    | none =>
      (simpleTail left text).map fun ((words, redirections), rest) =>
        (.simple [] words redirections, rest)

/-- Read the redirections behind a group. -/
def redirections : Nat → List Char → Option (List Redirection × List Char)
  | 0, _ => none
  | left + 1, text =>
    (simpleTail left text).bind fun ((words, found), rest) =>
      if words.isEmpty then some (found, rest) else none

/-- Read the arms of a choice. -/
def arms : Nat → List Char → Option (List (List (List Piece) × List Step) × List Char)
  | 0, _ => none
  | left + 1, text =>
    let text := dropBreaks left text
    if plainWord text = "esac" then some ([], dropWord text)
    else
      match patterns left text with
      | none => none
      | some (found, rest) =>
        match steps left rest with
        | none => none
        | some (body, rest) =>
          let rest := match dropBreaks left rest with
            | ';' :: ';' :: rest => rest
            | rest => rest
          (arms left rest).map fun (later, rest) => ((found, body) :: later, rest)

/-- Read the patterns of an arm, up to the bracket behind them. -/
def patterns : Nat → List Char → Option (List (List Piece) × List Char)
  | 0, _ => none
  | left + 1, text =>
    match wordPieces left (dropBlanks text) with
    | none => none
    | some (pieces, rest) =>
      match dropBlanks rest with
      | ')' :: rest => some ([joinTexts pieces], rest)
      | '|' :: rest =>
        (patterns left rest).map fun (later, rest) => (joinTexts pieces :: later, rest)
      | _ => none

/-- Read a list of steps between two words. -/
def body : Nat → String → String → List Char → Option (List Step × List Char)
  | 0, _, _, _ => none
  | left + 1, opening, closing, text =>
    let text := dropBreaks left text
    if plainWord text = opening then
      match steps left (dropWord text) with
      | none => none
      | some (body, rest) =>
        let rest := dropBreaks left rest
        if plainWord rest = closing then some (body, dropWord rest) else none
    else none

/-- Read a branch behind its first word. -/
def branch : Nat → List Char → Option (Command × List Char)
  | 0, _ => none
  | left + 1, text =>
    match steps left text with
    | none => none
    | some (condition, rest) =>
      if plainWord (dropBreaks left rest) = "then" then
        match steps left (dropWord (dropBreaks left rest)) with
        | none => none
        | some (body, rest) =>
          let rest := dropBreaks left rest
          match plainWord rest with
          | "fi" => some (.branch condition body [], dropWord rest)
          | "elif" =>
            (branch left (dropWord rest)).map fun (other, rest) =>
              (.branch condition body [.pipeline false [other] .next], rest)
          | "else" =>
            match steps left (dropWord rest) with
            | none => none
            | some (other, rest) =>
              let rest := dropBreaks left rest
              if plainWord rest = "fi" then some (.branch condition body other, dropWord rest)
              else none
          | _ => none
      else none

/-- Read one command. -/
def command : Nat → List Char → Option (Command × List Char)
  | 0, _ => none
  | left + 1, text =>
    let text := dropBlanks text
    let behind := dropWord text
    let loop := fun (whileFails : Bool) =>
      match steps left behind with
      | none => none
      | some (condition, rest) =>
        (body left "do" "done" rest).map fun (body, rest) => (.loop whileFails condition body, rest)
    let behindGroup := fun (group : List Redirection → Command) (rest : List Char) =>
      (redirections left rest).map fun (redirections, rest) => (group redirections, rest)
    match text with
    | '(' :: rest =>
      match steps left rest with
      | some (found, ')' :: rest) => behindGroup (.inner found) rest
      | _ => none
    | _ =>
      match plainWord text with
      | "while" => loop false
      | "until" => loop true
      | "if" => branch left behind
      | "\x7b" =>
        match steps left behind with
        | none => none
        | some (found, rest) =>
          let rest := dropBreaks left rest
          if plainWord rest = "\x7d" then behindGroup (.group found) (dropWord rest) else none
      | "for" =>
        let name := dropBlanks behind
        let listed := dropBlanks (dropWord name)
        if plainWord listed = "in" then
          match simpleTail left (dropWord listed) with
          | none => none
          | some ((words, _), rest) =>
            (body left "do" "done" rest).map fun (body, rest) =>
              (.each (plainWord name) words body, rest)
        else none
      | "case" =>
        match wordPieces left (dropBlanks behind) with
        | none => none
        | some (pieces, rest) =>
          let rest := dropBreaks left rest
          if plainWord rest = "in" then
            (arms left (dropWord rest)).map fun (arms, rest) => (.choose (joinTexts pieces) arms, rest)
          else none
      | _ => simple left text

/-- Read commands with pipes between them. -/
def commands : Nat → List Char → Option (List Command × List Char)
  | 0, _ => none
  | left + 1, text =>
    match command left text with
    | none => none
    | some (first, rest) =>
      match dropBlanks rest with
      | '|' :: '|' :: rest => some ([first], '|' :: '|' :: rest)
      | '|' :: rest =>
        (commands left (dropBreaks left rest)).map fun (later, rest) => (first :: later, rest)
      | rest => some ([first], rest)

/-- Read steps up to what ends the list. -/
def steps : Nat → List Char → Option (List Step × List Char)
  | 0, _ => none
  | left + 1, text =>
    let text := dropBreaks left text
    if isClosed text then some ([], text)
    else
      let negated := plainWord text = "!"
      match commands left (if negated then dropWord text else text) with
      | none => none
      | some (found, rest) =>
        let (joint, rest) := match dropBlanks rest with
          | '&' :: '&' :: rest => (Joint.onSuccess, rest)
          | '|' :: '|' :: rest => (Joint.onFailure, rest)
          | '&' :: rest => (Joint.background, rest)
          | rest => (Joint.next, rest)
        (steps left rest).map fun (later, rest) => (.pipeline negated found joint :: later, rest)

end

/-- Read a whole script. -/
def read? (text : String) : Option (List Step) :=
  match steps (16 * text.length + 64) text.toList with
  | some (found, []) => some found
  | _ => none

end BuildWatch.Script
