import BuildWatch.Proofs.Json.Numeral

/-!
# How a text is cut into tokens

The tokens of a text are what is left of it without the white space between them: marks,
strings and literals. A literal goes on as long as it can, so behind it stands no
character of a literal; a string ends by itself. The relation `Lexes` says this without a
scanner, and the scanner agrees with it.

Marks are the joints of a text. A text with a mark among its tokens is one text in front
of this mark and one behind it, each with the tokens of its own, and any two texts can be
joined by a mark again.
-/

namespace BuildWatch.Json.Token

/-- A text and its tokens. -/
inductive Lexes : List Char → List Token → Prop where
  | nil : Lexes [] []
  | space (c : Char) (rest : List Char) (tokens : List Token) (isBlank : isSpace c = true)
      (behind : Lexes rest tokens) : Lexes (c :: rest) tokens
  | mark (c : Char) (mark : Token) (rest : List Char) (tokens : List Token)
      (marks : mark? c = some mark) (behind : Lexes rest tokens) : Lexes (c :: rest) (mark :: tokens)
  | string (body value rest : List Char) (tokens : List Token) (inside : Characters body value)
      (behind : Lexes rest tokens) :
      Lexes ('"' :: body ++ '"' :: rest) (.text (String.ofList value) :: tokens)
  | literal (literal rest : List Char) (token : Token) (tokens : List Token)
      (plain : Number.Plain literal) (stands : ofLiteral? literal = some token)
      (ends : ∀ c more, rest = c :: more → isLiteral c = false) (behind : Lexes rest tokens) :
      Lexes (literal ++ rest) (token :: tokens)

/-- The tokens at the end of a text, from where reading stands. -/
def cut (text : List Char) (scan : Scan) : Option (List Token) :=
  (text.foldlM step scan).bind Scan.finish

theorem cut_cons (c : Char) (rest : List Char) (scan : Scan) :
    cut (c :: rest) scan = (step scan c).bind (cut rest) := by
  rw [cut, List.foldlM_cons]
  exact Option.bind_assoc _ _ _

theorem cut_append (text rest : List Char) (scan after : Scan)
    (read : text.foldlM step scan = some after) : cut (text ++ rest) scan = cut rest after := by
  rw [cut, List.foldlM_append, read]
  rfl

/-! ## Marks, white space and literals -/

/-- The marks of the grammar. -/
theorem mark_cases (c : Char) (mark : Token) (marks : mark? c = some mark) :
    c = '[' ∨ c = ']' ∨ c = '\x7b' ∨ c = '\x7d' ∨ c = ',' ∨ c = ':' := by
  by_contra other
  simp only [not_or] at other
  simp [mark?, other] at marks

/-- The marks of the grammar are neither white space nor part of a string or a literal. -/
theorem mark_plain (c : Char) (mark : Token) (marks : mark? c = some mark) :
    isSpace c = false ∧ c ≠ '"' ∧ isLiteral c = false := by
  rcases mark_cases c mark marks with rfl | rfl | rfl | rfl | rfl | rfl <;> decide

/-- Characters of literals are neither white space nor a quote. -/
theorem literal_plain (c : Char) (isPart : isLiteral c = true) : isSpace c = false ∧ c ≠ '"' := by
  constructor
  · rw [Bool.eq_false_iff]
    intro space
    simp only [isSpace, Bool.or_eq_true, decide_eq_true_eq] at space
    rcases space with ((rfl | rfl) | rfl) | rfl <;> exact absurd isPart (by decide)
  · rintro rfl
    exact absurd isPart (by decide)

/-- No literal is empty. -/
theorem ofLiteral?_nil (token : Token) : ofLiteral? [] ≠ some token := by
  have nothing : ofLiteral? [] = none := by decide
  simp [nothing]

/-- An open literal takes in the characters of literals. -/
theorem literal_open (text read : List Char) (tokens : List Token) (plain : Number.Plain text) :
    text.foldlM step ⟨.literal read, tokens⟩ = some ⟨.literal (text.reverse ++ read), tokens⟩ := by
  induction text generalizing read with
  | nil => rfl
  | cons c rest inductionHypothesis =>
    obtain ⟨isPart, later⟩ := List.forall_mem_cons.mp plain
    simpa [step, isPart] using inductionHypothesis (c :: read) later

/-- A literal ends where no further character of a literal stands, and then reading goes
on as from between two tokens. -/
theorem literal_close (read rest : List Char) (held : List Token)
    (ends : ∀ c more, rest = c :: more → isLiteral c = false) :
    cut rest ⟨.literal read, held⟩ =
      (ofLiteral? read.reverse).bind fun token => cut rest ⟨.nothing, token :: held⟩ := by
  cases rest with
  | nil =>
    cases stands : ofLiteral? read.reverse <;> simp [cut, Scan.finish, stands]
  | cons c more =>
    have noPart : isLiteral c = false := ends c more rfl
    simp only [cut_cons, step, noPart, Bool.false_eq_true, if_false]
    exact Option.bind_assoc _ _ _

/-- Behind the start of a literal stands the rest of it. -/
theorem literal_taken (text read : List Char) (held all : List Token)
    (taken : cut text ⟨.literal read, held⟩ = some all) :
    ∃ literal rest token, text = literal ++ rest ∧ Number.Plain literal ∧
      ofLiteral? (read.reverse ++ literal) = some token ∧
      (∀ c more, rest = c :: more → isLiteral c = false) ∧
      cut rest ⟨.nothing, token :: held⟩ = some all := by
  induction text generalizing read with
  | nil =>
    rw [literal_close read [] held (by simp)] at taken
    obtain ⟨token, stands, later⟩ := Option.bind_eq_some_iff.mp taken
    exact ⟨[], [], token, rfl, by simp [Number.Plain], by simpa using stands, by simp, later⟩
  | cons c rest inductionHypothesis =>
    by_cases isPart : isLiteral c = true
    · have next : step ⟨.literal read, held⟩ c = some ⟨.literal (c :: read), held⟩ := by
        simp [step, isPart]
      rw [cut_cons, next, Option.bind_some] at taken
      obtain ⟨literal, behind, token, rfl, plain, stands, ends, later⟩ :=
        inductionHypothesis (c :: read) taken
      exact ⟨c :: literal, behind, token, rfl, plain.cons isPart, by simpa using stands, ends, later⟩
    · have ends : ∀ d more, c :: rest = d :: more → isLiteral d = false := by
        rintro d more ⟨⟩
        exact Bool.eq_false_iff.mpr isPart
      rw [literal_close read _ held ends] at taken
      obtain ⟨token, stands, later⟩ := Option.bind_eq_some_iff.mp taken
      exact ⟨[], c :: rest, token, rfl, by simp [Number.Plain], by simpa using stands, ends, later⟩

/-! ## Strings -/

/-- A code has a value when each beginning of it has. -/
theorem codeOf?_append (digits more : List Char) (code : Nat)
    (hex : codeOf? (digits ++ more) = some code) : ∃ begun, codeOf? digits = some begun := by
  rw [codeOf?, List.foldlM_append] at hex
  obtain ⟨begun, read, -⟩ := Option.bind_eq_some_iff.mp hex
  exact ⟨begun, read⟩

/-- The digits of a code are read to the fourth, and then the code is looked at. -/
theorem code_open (read : List Char) (first : Option Nat) (more digits : List Char) (code : Nat)
    (tokens : List Token) (present : more ≠ []) (four : digits.length + more.length = 4)
    (hex : codeOf? (digits ++ more) = some code) :
    more.foldlM step ⟨.code read first digits, tokens⟩ =
      (closeCode read first code).map fun opened => ⟨opened, tokens⟩ := by
  induction more generalizing digits with
  | nil => exact absurd rfl present
  | cons c rest inductionHypothesis =>
    rw [List.append_cons] at hex
    obtain ⟨begun, partly⟩ := codeOf?_append _ rest code hex
    cases rest with
    | nil =>
      rw [List.append_nil] at hex
      have last : ¬ (digits ++ [c]).length < 4 := by
        rw [List.length_append]
        omega
      simp only [List.foldlM_cons, step, hex, last, if_false]
      cases closeCode read first code <;> rfl
    | cons d rest =>
      have early : (digits ++ [c]).length < 4 := by
        simp only [List.length_append, List.length_cons, List.length_nil] at four ⊢
        omega
      have next : step ⟨.code read first digits, tokens⟩ c =
          some ⟨.code read first (digits ++ [c]), tokens⟩ := by
        simp only [step, partly, early, if_true]
      rw [List.foldlM_cons, next]
      have remaining : (digits ++ [c]).length + (d :: rest).length = 4 := by
        simp only [List.length_append, List.length_cons, List.length_nil] at four ⊢
        omega
      exact inductionHypothesis (digits ++ [c]) (List.cons_ne_nil d rest) remaining hex

/-- A whole code is read and then looked at. -/
theorem code_whole (read : List Char) (first : Option Nat) (digits : List Char) (code : Nat)
    (tokens : List Token) (four : digits.length = 4) (hex : codeOf? digits = some code) :
    digits.foldlM step ⟨.code read first [], tokens⟩ =
      (closeCode read first code).map fun opened => ⟨opened, tokens⟩ := by
  have present : digits ≠ [] := by
    rintro rfl
    exact absurd four (by decide)
  exact code_open read first digits [] code tokens present (by simpa using four) hex

theorem isFirstHalf_iff (code : Nat) : isFirstHalf code = true ↔ 0xD800 ≤ code ∧ code < 0xDC00 := by
  simp [isFirstHalf]

theorem isSecondHalf_iff (code : Nat) : isSecondHalf code = true ↔ 0xDC00 ≤ code ∧ code < 0xE000 := by
  simp [isSecondHalf]

/-- What is open behind a code that is not the second of a pair: such a pair is begun, or
the code is a character of its own. -/
theorem closeCode_first (read : List Char) (code : Nat) (opened : Open) :
    closeCode read none code = some opened ↔
      (0xD800 ≤ code ∧ code < 0xDC00) ∧ .secondEscape read code = opened ∨
        (code < 0xD800 ∨ 0xE000 ≤ code) ∧ .string (Char.ofNat code :: read) = opened := by
  simp only [closeCode, isFirstHalf_iff, isSecondHalf_iff]
  by_cases high : 0xD800 ≤ code ∧ code < 0xDC00
  · have noSingle : ¬ (code < 0xD800 ∨ 0xE000 ≤ code) := by omega
    simp only [high, and_self, if_true, Option.some.injEq, true_and, noSingle, false_and, or_false]
  by_cases low : 0xDC00 ≤ code ∧ code < 0xE000
  · have noSingle : ¬ (code < 0xD800 ∨ 0xE000 ≤ code) := by omega
    simp only [high, if_false, low, and_self, if_true, reduceCtorEq, noSingle, false_and, or_self]
  · have single : code < 0xD800 ∨ 0xE000 ≤ code := by omega
    simp only [high, low, if_false, Option.some.injEq, false_and, single, true_and, false_or]

/-- Behind the second code of a pair the character of both is read. -/
theorem closeCode_second (read : List Char) (high code : Nat) (opened : Open) :
    closeCode read (some high) code = some opened ↔
      (0xDC00 ≤ code ∧ code < 0xE000) ∧
        .string (Char.ofNat (0x10000 + (high - 0xD800) * 0x400 + (code - 0xDC00)) :: read) =
          opened := by
  simp only [closeCode, isSecondHalf_iff, Option.ite_none_right_eq_some, Option.some.injEq]

/-- Behind the start of a code stand its other digits. -/
theorem code_taken (text read : List Char) (first : Option Nat) (digits : List Char)
    (held all : List Token) (early : digits.length < 4)
    (taken : cut text ⟨.code read first digits, held⟩ = some all) :
    ∃ more rest code opened, text = more ++ rest ∧ (digits ++ more).length = 4 ∧
      codeOf? (digits ++ more) = some code ∧ closeCode read first code = some opened ∧
      cut rest ⟨opened, held⟩ = some all := by
  induction text generalizing digits with
  | nil => exact absurd taken (by simp [cut, Scan.finish])
  | cons c rest inductionHypothesis =>
    rw [cut_cons] at taken
    obtain ⟨scan, read, later⟩ := Option.bind_eq_some_iff.mp taken
    cases hex : codeOf? (digits ++ [c]) with
    | none => simp [step, hex] at read
    | some code =>
      by_cases goesOn : (digits ++ [c]).length < 4
      · simp only [step, hex, goesOn, if_true, Option.some.injEq] at read
        subst read
        obtain ⟨more, behind, code, opened, rfl, four, hex, closes, later⟩ :=
          inductionHypothesis (digits ++ [c]) goesOn later
        rw [← List.append_cons] at four hex
        exact ⟨c :: more, behind, code, opened, rfl, four, hex, closes, later⟩
      · simp only [step, hex, goesOn, if_false, Option.map_eq_some_iff] at read
        obtain ⟨opened, closes, rfl⟩ := read
        have four : (digits ++ [c]).length = 4 := by
          simp only [List.length_append, List.length_cons, List.length_nil] at goesOn ⊢
          omega
        exact ⟨[c], rest, code, opened, rfl, four, hex, closes, later⟩

/-- The text inside a string adds its characters to those that are read. -/
theorem characters_open (body value read : List Char) (tokens : List Token)
    (inside : Characters body value) :
    body.foldlM step ⟨.string read, tokens⟩ = some ⟨.string (value.reverse ++ read), tokens⟩ := by
  have slash : ∀ read, step ⟨.string read, tokens⟩ '\\' = some ⟨.escape read, tokens⟩ := fun _ => rfl
  induction inside generalizing read with
  | nil => rfl
  | plain c body value visible noQuote noSlash rest inductionHypothesis =>
    have next : step ⟨.string read, tokens⟩ c = some ⟨.string (c :: read), tokens⟩ := by
      simp [step, noQuote, noSlash, Nat.not_lt.mpr visible]
    rw [List.foldlM_cons, next]
    simpa using inductionHypothesis (c :: read)
  | letter letter c body value stands rest inductionHypothesis =>
    have noCode : letter ≠ 'u' := by
      rintro rfl
      simp [escaped?] at stands
    have next : step ⟨.escape read, tokens⟩ letter = some ⟨.string (c :: read), tokens⟩ := by
      simp [step, noCode, stands]
    rw [List.foldlM_cons, slash, Option.bind_eq_bind, Option.bind_some, List.foldlM_cons, next]
    simpa using inductionHypothesis (c :: read)
  | code digits code body value four hex single rest inductionHypothesis =>
    have escaped : ('\\' :: 'u' :: digits).foldlM step ⟨.string read, tokens⟩ =
        some ⟨.string (Char.ofNat code :: read), tokens⟩ := by
      refine (code_whole read none digits code tokens four hex).trans ?_
      rw [(closeCode_first read code _).mpr (Or.inr ⟨single, rfl⟩), Option.map_some]
    rw [List.foldlM_append, escaped]
    simpa using inductionHypothesis (Char.ofNat code :: read)
  | pair first second high low body value firstFour firstHex isHigh secondFour secondHex isLow rest
      inductionHypothesis =>
    have begun : ('\\' :: 'u' :: first).foldlM step ⟨.string read, tokens⟩ =
        some ⟨.secondEscape read high, tokens⟩ := by
      refine (code_whole read none first high tokens firstFour firstHex).trans ?_
      rw [(closeCode_first read high _).mpr (Or.inl ⟨isHigh, rfl⟩), Option.map_some]
    have ended : ('\\' :: 'u' :: second).foldlM step ⟨.secondEscape read high, tokens⟩ =
        some ⟨.string (Char.ofNat (0x10000 + (high - 0xD800) * 0x400 + (low - 0xDC00)) :: read),
          tokens⟩ := by
      refine (code_whole read (some high) second low tokens secondFour secondHex).trans ?_
      rw [(closeCode_second read high low _).mpr ⟨isLow, rfl⟩, Option.map_some]
    rw [List.foldlM_append, List.foldlM_append, begun, Option.bind_eq_bind, Option.bind_some, ended]
    simpa using inductionHypothesis (Char.ofNat _ :: read)

/-- An escape and its character. -/
def Escapes (escape : List Char) (c : Char) : Prop :=
  ∀ body value, Characters body value → Characters ('\\' :: escape ++ body) (c :: value)

/-- Behind the first code of a pair another escape begins. -/
theorem secondEscape_taken (text read : List Char) (high : Nat) (held all : List Token)
    (taken : cut text ⟨.secondEscape read high, held⟩ = some all) :
    ∃ rest, text = '\\' :: 'u' :: rest ∧ cut rest ⟨.code read (some high) [], held⟩ = some all := by
  cases text with
  | nil => exact absurd taken (by simp [cut, Scan.finish])
  | cons slash text =>
    rw [cut_cons] at taken
    obtain ⟨scan, stepped, later⟩ := Option.bind_eq_some_iff.mp taken
    obtain ⟨rfl, same⟩ := Option.ite_none_right_eq_some.mp stepped
    obtain rfl := Option.some.inj same
    cases text with
    | nil => exact absurd later (by simp [cut, Scan.finish])
    | cons mark rest =>
      rw [cut_cons] at later
      obtain ⟨scan, stepped, later⟩ := Option.bind_eq_some_iff.mp later
      obtain ⟨rfl, same⟩ := Option.ite_none_right_eq_some.mp stepped
      obtain rfl := Option.some.inj same
      exact ⟨rest, rfl, later⟩

/-- Behind the first code of a pair stands the second. -/
theorem pair_taken (text read first : List Char) (high : Nat) (held all : List Token)
    (four : first.length = 4) (hex : codeOf? first = some high)
    (isHigh : 0xD800 ≤ high ∧ high < 0xDC00)
    (taken : cut text ⟨.secondEscape read high, held⟩ = some all) :
    ∃ escape c rest, text = escape ++ rest ∧ Escapes ('u' :: first ++ escape) c ∧
      cut rest ⟨.string (c :: read), held⟩ = some all := by
  obtain ⟨rest, rfl, later⟩ := secondEscape_taken text read high held all taken
  obtain ⟨second, behind, low, opened, rfl, secondFour, secondHex, closes, later⟩ :=
    code_taken rest read (some high) [] held all (by decide) later
  obtain ⟨isLow, rfl⟩ := (closeCode_second read high low opened).mp closes
  refine ⟨'\\' :: 'u' :: second, _, behind, rfl, ?_, later⟩
  intro body value inside
  have whole := Characters.pair first second high low body value four hex isHigh secondFour
    secondHex isLow inside
  simpa only [List.append_assoc, List.cons_append] using whole

/-- Behind the mark of an escape stands the rest of it. -/
theorem escape_taken (text read : List Char) (held all : List Token)
    (taken : cut text ⟨.escape read, held⟩ = some all) :
    ∃ escape c rest, text = escape ++ rest ∧ Escapes escape c ∧
      cut rest ⟨.string (c :: read), held⟩ = some all := by
  cases text with
  | nil => exact absurd taken (by simp [cut, Scan.finish])
  | cons letter rest =>
    rw [cut_cons] at taken
    obtain ⟨scan, stepped, later⟩ := Option.bind_eq_some_iff.mp taken
    by_cases coded : letter = 'u'
    · subst coded
      obtain rfl : ⟨.code read none [], held⟩ = scan := Option.some.inj stepped
      obtain ⟨digits, behind, code, opened, rfl, four, hex, closes, later⟩ :=
        code_taken rest read none [] held all (by decide) later
      rcases (closeCode_first read code opened).mp closes with ⟨isHigh, rfl⟩ | ⟨single, rfl⟩
      · obtain ⟨escape, c, behind, rfl, escapes, later⟩ :=
          pair_taken behind read digits code held all four hex isHigh later
        exact ⟨'u' :: digits ++ escape, c, behind, by simp, escapes, later⟩
      · exact ⟨'u' :: digits, _, behind, rfl,
          fun body value => Characters.code digits code body value four hex single, later⟩
    · simp only [step, coded, if_false, Option.map_eq_some_iff] at stepped
      obtain ⟨c, stands, rfl⟩ := stepped
      exact ⟨[letter], c, rest, rfl,
        fun body value => Characters.letter letter c body value stands, later⟩

/-- Behind the start of a string stand the rest of it and a quote. The induction is on the
length of the text, since an escape has several characters. -/
theorem string_taken (text read : List Char) (held all : List Token)
    (taken : cut text ⟨.string read, held⟩ = some all) :
    ∃ body value rest, text = body ++ '"' :: rest ∧ Characters body value ∧
      cut rest ⟨.nothing, .text (String.ofList (read.reverse ++ value)) :: held⟩ = some all := by
  induction length : text.length using Nat.strongRecOn generalizing text read with
  | ind size inductionHypothesis =>
    cases text with
    | nil => exact absurd taken (by simp [cut, Scan.finish])
    | cons c rest =>
      rw [cut_cons] at taken
      obtain ⟨scan, stepped, later⟩ := Option.bind_eq_some_iff.mp taken
      rw [List.length_cons] at length
      by_cases quote : c = '"'
      · subst quote
        obtain rfl := Option.some.inj stepped
        exact ⟨[], [], rest, rfl, Characters.nil, by simpa using later⟩
      by_cases slash : c = '\\'
      · subst slash
        obtain rfl : ⟨.escape read, held⟩ = scan := Option.some.inj stepped
        obtain ⟨escape, c, behind, rfl, escapes, later⟩ := escape_taken rest read held all later
        have shorter : behind.length < size := by
          rw [List.length_append] at length
          omega
        obtain ⟨body, value, behind, rfl, inside, later⟩ :=
          inductionHypothesis behind.length shorter behind (c :: read) later rfl
        exact ⟨'\\' :: escape ++ body, c :: value, behind, by simp, escapes body value inside,
          by simpa using later⟩
      · simp only [step, quote, slash, if_false, Option.ite_none_left_eq_some,
          Option.some.injEq] at stepped
        obtain ⟨visible, rfl⟩ := stepped
        obtain ⟨body, value, behind, rfl, inside, later⟩ :=
          inductionHypothesis rest.length (by omega) rest (c :: read) later rfl
        exact ⟨c :: body, c :: value, behind, rfl,
          Characters.plain c body value (Nat.le_of_not_lt visible) quote slash inside,
          by simpa using later⟩

/-! ## Whole texts -/

/-- The tokens of a text are those that are read. -/
theorem Lexes.taken {text : List Char} {tokens : List Token} (lexes : Lexes text tokens)
    (held : List Token) : cut text ⟨.nothing, held⟩ = some (held.reverse ++ tokens) := by
  induction lexes generalizing held with
  | nil => simp [cut, Scan.finish]
  | space c rest tokens isBlank behind inductionHypothesis =>
    have next : step ⟨.nothing, held⟩ c = some ⟨.nothing, held⟩ := by
      simp [step, beginToken, isBlank]
    rw [cut_cons, next]
    exact inductionHypothesis held
  | mark c mark rest tokens marks behind inductionHypothesis =>
    have next : step ⟨.nothing, held⟩ c = some ⟨.nothing, mark :: held⟩ := by
      simp [step, beginToken, mark_plain c mark marks, marks]
    rw [cut_cons, next]
    simpa using inductionHypothesis (mark :: held)
  | string body value rest tokens inside behind inductionHypothesis =>
    have opened : step ⟨.nothing, held⟩ '"' = some ⟨.string [], held⟩ := rfl
    have closed : step ⟨.string value.reverse, held⟩ '"' =
        some ⟨.nothing, .text (String.ofList value) :: held⟩ := by
      simp [step]
    have read := characters_open body value [] held inside
    rw [List.append_nil] at read
    rw [List.cons_append, cut_cons, opened, Option.bind_some, cut_append _ _ _ _ read, cut_cons,
      closed]
    simpa using inductionHypothesis (.text (String.ofList value) :: held)
  | literal literal rest token tokens plain stands ends behind inductionHypothesis =>
    cases literal with
    | nil => exact absurd stands (ofLiteral?_nil token)
    | cons c more =>
      obtain ⟨isPart, later⟩ := List.forall_mem_cons.mp plain
      have next : step ⟨.nothing, held⟩ c = some ⟨.literal [c], held⟩ := by
        simp [step, beginToken, literal_plain c isPart, isPart]
      have whole : (more.reverse ++ [c]).reverse = c :: more := by simp
      rw [List.cons_append, cut_cons, next, Option.bind_some,
        cut_append _ _ _ _ (literal_open more [c] held later), literal_close _ _ _ ends, whole,
        stands, Option.bind_some]
      simpa using inductionHypothesis (token :: held)

/-- What is read from between two tokens are the tokens of the text. The induction is on the
length of the text, since a token has several characters. -/
theorem lexes_of_taken (text : List Char) (held all : List Token)
    (taken : cut text ⟨.nothing, held⟩ = some all) :
    ∃ tokens, all = held.reverse ++ tokens ∧ Lexes text tokens := by
  induction length : text.length using Nat.strongRecOn generalizing text held with
  | ind size inductionHypothesis =>
    cases text with
    | nil => exact ⟨[], by simpa [cut, Scan.finish, eq_comm] using taken, Lexes.nil⟩
    | cons c rest =>
      rw [cut_cons] at taken
      obtain ⟨scan, stepped, later⟩ := Option.bind_eq_some_iff.mp taken
      rw [List.length_cons] at length
      simp only [step, beginToken] at stepped
      split_ifs at stepped with space quote isPart
      · obtain rfl := Option.some.inj stepped
        obtain ⟨tokens, rfl, lexes⟩ := inductionHypothesis rest.length (by omega) rest held later rfl
        exact ⟨tokens, rfl, Lexes.space c rest tokens space lexes⟩
      · subst quote
        obtain rfl := Option.some.inj stepped
        obtain ⟨body, value, behind, rfl, inside, later⟩ := string_taken rest [] held all later
        have shorter : behind.length < size := by
          rw [List.length_append, List.length_cons] at length
          omega
        obtain ⟨tokens, rfl, lexes⟩ := inductionHypothesis behind.length shorter behind _ later rfl
        exact ⟨_, by simp, Lexes.string body value behind tokens inside lexes⟩
      · obtain rfl := Option.some.inj stepped
        obtain ⟨more, behind, token, rfl, plain, stands, ends, later⟩ :=
          literal_taken rest [c] held all later
        have shorter : behind.length < size := by
          rw [List.length_append] at length
          omega
        obtain ⟨tokens, rfl, lexes⟩ := inductionHypothesis behind.length shorter behind _ later rfl
        exact ⟨token :: tokens, by simp,
          Lexes.literal (c :: more) behind token tokens (plain.cons isPart) stands ends lexes⟩
      · obtain ⟨mark, marks, rfl⟩ := Option.map_eq_some_iff.mp stepped
        obtain ⟨tokens, rfl, lexes⟩ := inductionHypothesis rest.length (by omega) rest _ later rfl
        exact ⟨mark :: tokens, by simp, Lexes.mark c mark rest tokens marks lexes⟩

/-- A text is cut into its tokens, and into no others. -/
theorem tokens?_iff (text : List Char) (tokens : List Token) :
    tokens? text = some tokens ↔ Lexes text tokens := by
  constructor
  · intro taken
    obtain ⟨tokens, rfl, lexes⟩ := lexes_of_taken text [] _ taken
    exact lexes
  · exact fun lexes => lexes.taken []

/-! ## Texts side by side -/

/-- A text that begins with no character of a literal. -/
def Apart (text : List Char) : Prop := ∀ c rest, text = c :: rest → isLiteral c = false

theorem Apart.append {text more : List Char} (apart : Apart text) (behind : Apart more) :
    Apart (text ++ more) := by
  cases text with
  | nil => exact behind
  | cons c rest =>
    rintro d tail ⟨⟩
    exact apart c rest rfl

/-- Two texts that do not touch in a literal have the tokens of both. -/
theorem Lexes.append {text more : List Char} {tokens further : List Token}
    (front : Lexes text tokens) (behind : Lexes more further) (apart : Apart more) :
    Lexes (text ++ more) (tokens ++ further) := by
  induction front with
  | nil => exact behind
  | space c rest tokens isBlank _ inductionHypothesis =>
    exact Lexes.space c _ _ isBlank inductionHypothesis
  | mark c mark rest tokens marks _ inductionHypothesis =>
    exact Lexes.mark c mark _ _ marks inductionHypothesis
  | string body value rest tokens inside _ inductionHypothesis =>
    have joined := Lexes.string body value _ _ inside inductionHypothesis
    simpa only [List.append_assoc, List.cons_append] using joined
  | literal literal rest token tokens plain stands ends _ inductionHypothesis =>
    rw [List.append_assoc]
    exact Lexes.literal literal _ token _ plain stands (Apart.append ends apart) inductionHypothesis

/-- A mark touches no literal. -/
theorem mark_apart (c : Char) (mark : Token) (marks : mark? c = some mark) (rest : List Char) :
    Apart (c :: rest) := by
  rintro d tail ⟨⟩
  exact (mark_plain c mark marks).2.2

/-- A text without tokens is blank. -/
theorem lexes_nil (text : List Char) : Lexes text [] ↔ Blank text := by
  constructor
  · intro lexes
    generalize none : ([] : List Token) = tokens at lexes
    induction lexes with
    | nil => exact fun c member => absurd member List.not_mem_nil
    | space c rest tokens isBlank behind inductionHypothesis =>
      exact List.forall_mem_cons.mpr ⟨isBlank, inductionHypothesis none⟩
    | mark | string | literal => exact absurd none (List.cons_ne_nil _ _).symm
  · intro blank
    induction text with
    | nil => exact Lexes.nil
    | cons c rest inductionHypothesis =>
      obtain ⟨isBlank, later⟩ := List.forall_mem_cons.mp blank
      exact Lexes.space c rest [] isBlank (inductionHypothesis later)

/-- White space touches no literal. -/
theorem blank_apart (text : List Char) (blank : Blank text) : Apart text := by
  rintro c rest rfl
  have space := blank c List.mem_cons_self
  exact Bool.eq_false_iff.mpr fun isPart => by simp [literal_plain c isPart] at space

/-- White space around a text makes no token. -/
theorem Lexes.spaced {left text right : List Char} {tokens : List Token} (before : Blank left)
    (behind : Blank right) (lexes : Lexes text tokens) : Lexes (left ++ text ++ right) tokens := by
  have followed : Lexes (text ++ right) tokens := by
    simpa using lexes.append ((lexes_nil right).mpr behind) (blank_apart right behind)
  rw [List.append_assoc]
  induction left with
  | nil => exact followed
  | cons c rest inductionHypothesis =>
    obtain ⟨isBlank, others⟩ := List.forall_mem_cons.mp before
    exact Lexes.space c _ tokens isBlank (inductionHypothesis others)

/-- A mark is known by its token. -/
theorem mark?_injective (c d : Char) (mark : Token) (marks : mark? c = some mark)
    (also : mark? d = some mark) : c = d := by
  rcases mark_cases c mark marks with rfl | rfl | rfl | rfl | rfl | rfl <;>
    obtain rfl := Option.some.inj marks <;>
    rcases mark_cases d _ also with rfl | rfl | rfl | rfl | rfl | rfl <;>
    first | rfl | exact absurd also (by decide)

/-- What a literal stands for. -/
theorem ofLiteral?_cases (literal : List Char) (token : Token)
    (stands : ofLiteral? literal = some token) :
    (literal = ['n', 'u', 'l', 'l'] ∧ token = .null) ∨
      (literal = ['t', 'r', 'u', 'e'] ∧ token = .bool true) ∨
      (literal = ['f', 'a', 'l', 's', 'e'] ∧ token = .bool false) ∨
      ∃ number, Number.read? literal = some number ∧ token = .number number := by
  unfold ofLiteral? at stands
  split_ifs at stands with isNull isTrue isFalse
  · exact Or.inl ⟨isNull, (Option.some.inj stands).symm⟩
  · exact Or.inr (Or.inl ⟨isTrue, (Option.some.inj stands).symm⟩)
  · exact Or.inr (Or.inr (Or.inl ⟨isFalse, (Option.some.inj stands).symm⟩))
  · obtain ⟨number, read, rfl⟩ := Option.map_eq_some_iff.mp stands
    exact Or.inr (Or.inr (Or.inr ⟨number, read, rfl⟩))

/-- The value that a token is by itself. -/
def leaf? : Token → Option Json
  | .null => some .null
  | .bool value => some (.bool value)
  | .number value => some (.number value)
  | .text value => some (.text value)
  | _ => none

theorem leaf?_mark (c : Char) (mark : Token) (marks : mark? c = some mark) : leaf? mark = none := by
  rcases mark_cases c mark marks with rfl | rfl | rfl | rfl | rfl | rfl <;>
    obtain rfl := Option.some.inj marks <;> rfl

/-- A literal is a value by itself, and the grammar spells this value so. -/
theorem leaf?_literal (depth : Nat) (literal : List Char) (token : Token)
    (stands : ofLiteral? literal = some token) :
    ∃ value, leaf? token = some value ∧ Spells depth literal value := by
  rcases ofLiteral?_cases literal token stands with
    ⟨rfl, rfl⟩ | ⟨rfl, rfl⟩ | ⟨rfl, rfl⟩ | ⟨number, read, rfl⟩
  · exact ⟨.null, rfl, Spells.null depth⟩
  · exact ⟨.bool true, rfl, Spells.bool depth true⟩
  · exact ⟨.bool false, rfl, Spells.bool depth false⟩
  · obtain ⟨parts, spelled, means⟩ := (Number.read?_iff literal number).mp read
    exact ⟨.number number, rfl, Spells.number depth literal parts number spelled means⟩

/-- A text with a mark among its tokens is one text in front of the mark and one behind it. -/
theorem Lexes.split {text : List Char} (tokens : List Token) (mark : Token) (more : List Token)
    (c : Char) (marks : mark? c = some mark) (lexes : Lexes text (tokens ++ mark :: more)) :
    ∃ front rest, text = front ++ c :: rest ∧ Lexes front tokens ∧ Lexes rest more := by
  have noLeaf := leaf?_mark c mark marks
  generalize together : tokens ++ mark :: more = all at lexes
  induction lexes generalizing tokens with
  | nil => exact absurd together (by simp)
  | space d rest all isBlank _ inductionHypothesis =>
    obtain ⟨front, behind, rfl, before, after⟩ := inductionHypothesis tokens together
    exact ⟨d :: front, behind, rfl, Lexes.space d front tokens isBlank before, after⟩
  | mark d other rest all others lexed inductionHypothesis =>
    cases tokens with
    | nil =>
      obtain ⟨rfl, rfl⟩ := List.cons.inj together
      obtain rfl := mark?_injective c d mark marks others
      exact ⟨[], rest, rfl, Lexes.nil, lexed⟩
    | cons token tokens =>
      obtain ⟨rfl, later⟩ := List.cons.inj together
      obtain ⟨front, behind, rfl, before, after⟩ := inductionHypothesis tokens later
      exact ⟨d :: front, behind, rfl, Lexes.mark d token front tokens others before, after⟩
  | string body value rest all inside lexed inductionHypothesis =>
    cases tokens with
    | nil =>
      obtain ⟨rfl, -⟩ := List.cons.inj together
      exact absurd noLeaf (Option.some_ne_none _)
    | cons token tokens =>
      obtain ⟨rfl, later⟩ := List.cons.inj together
      obtain ⟨front, behind, rfl, before, after⟩ := inductionHypothesis tokens later
      exact ⟨'"' :: body ++ '"' :: front, behind, by simp,
        Lexes.string body value front tokens inside before, after⟩
  | literal literal rest token all plain stands ends lexed inductionHypothesis =>
    cases tokens with
    | nil =>
      obtain ⟨rfl, -⟩ := List.cons.inj together
      obtain ⟨value, isLeaf, -⟩ := leaf?_literal 0 literal mark stands
      simp [noLeaf] at isLeaf
    | cons token tokens =>
      obtain ⟨rfl, later⟩ := List.cons.inj together
      obtain ⟨front, behind, rfl, before, after⟩ := inductionHypothesis tokens later
      have apart : Apart front := by
        rintro d tail rfl
        exact ends d _ rfl
      exact ⟨literal ++ front, behind, by simp,
        Lexes.literal literal front token tokens plain stands apart before, after⟩

/-- A text of one token that is a value spells this value. -/
theorem Lexes.leaf {text : List Char} {token : Token} (depth : Nat) (value : Json)
    (isLeaf : leaf? token = some value) (lexes : Lexes text [token]) : Spells depth text value := by
  have around (left lexeme right : List Char) (before : Blank left) (behind : Lexes right [])
      (inside : Spells depth lexeme value) : Spells depth (left ++ lexeme ++ right) value :=
    Spells.spaced depth left lexeme right value before ((lexes_nil right).mp behind) inside
  generalize alone : [token] = tokens at lexes
  induction lexes with
  | nil => exact absurd alone (List.cons_ne_nil _ _)
  | space c rest tokens isBlank _ inductionHypothesis =>
    have single : Blank [c] := List.forall_mem_singleton.mpr isBlank
    have spaced := Spells.spaced depth [c] rest [] value single (by simp [Blank])
      (inductionHypothesis alone)
    rwa [List.append_nil] at spaced
  | mark c mark rest tokens marks _ _ =>
    obtain ⟨rfl, -⟩ := List.cons.inj alone
    exact absurd isLeaf (by simp [leaf?_mark c token marks])
  | string body characters rest tokens inside behind _ =>
    obtain ⟨rfl, rfl⟩ := List.cons.inj alone
    obtain rfl := Option.some.inj isLeaf
    have spaced := around [] _ rest (by simp [Blank]) behind (Spells.text depth body characters inside)
    simpa using spaced
  | literal literal rest token tokens plain stands ends behind _ =>
    obtain ⟨rfl, rfl⟩ := List.cons.inj alone
    obtain ⟨same, also, inside⟩ := leaf?_literal depth literal _ stands
    obtain rfl := Option.some.inj (also.symm.trans isLeaf)
    exact around [] literal rest (by simp [Blank]) behind inside

end BuildWatch.Json.Token
