import BuildWatch.Proofs.Json.Scan

/-!
# Every text of the grammar is read

The reader keeps the containers that are open in a list, and a value may stand inside any
of them that leave room for its depth. So what is said about a text of the grammar is said
about all such surroundings: it has tokens, and read there these make the value that the
text spells. The items of an array and the fields of an object follow by induction on those
behind the first one.
-/

namespace BuildWatch.Json

open Token (Lexes Apart leaf? mark?)

namespace Reading

/-- A value may begin here. -/
def ExpectsValue (expecting : Expecting) : Prop := expecting = .value ∨ expecting = .valueOrClose

/-- Tokens read where a value may begin, inside some open containers, make a value. -/
def Builds (room : Nat) (tokens : List Token) (value : Json) : Prop :=
  ∀ frames expecting, ExpectsValue expecting → frames.length + room ≤ depthLimit →
    tokens.foldlM step ⟨frames, expecting, .null⟩ = some (close frames value)

theorem foldlM_append (tokens more : List Token) (reading after : Reading)
    (read : tokens.foldlM step reading = some after) :
    (tokens ++ more).foldlM step reading = more.foldlM step after := by
  rw [List.foldlM_append, read]
  rfl

theorem foldlM_cons (token : Token) (more : List Token) (reading : Reading) :
    (token :: more).foldlM step reading = (step reading token).bind fun next => more.foldlM step next :=
  List.foldlM_cons

/-- A token that is a value by itself makes this value. -/
theorem leaf_builds (room : Nat) (token : Token) (value : Json) (isLeaf : leaf? token = some value) :
    Builds room [token] value := by
  rintro frames expecting (rfl | rfl) _ <;> cases token <;> cases isLeaf <;> rfl

/-- An array or object is begun where a value may begin, if there is room for it. -/
theorem step_open (token : Token) (frame : Frame) (next : Expecting)
    (opens : ∀ frames, begin frames token = enter frames frame next) (noClose : token ≠ .closeArray)
    (frames : List Frame) (expecting : Expecting) (isValue : ExpectsValue expecting)
    (room : frames.length < depthLimit) :
    step ⟨frames, expecting, .null⟩ token = some ⟨frame :: frames, next, .null⟩ := by
  have entered : enter frames frame next = some ⟨frame :: frames, next, .null⟩ := if_pos room
  rw [← entered, ← opens]
  rcases isValue with rfl | rfl
  · rfl
  · cases token <;> first | rfl | exact absurd rfl noClose

/-- A text has tokens that make a value. -/
def Readable (room : Nat) (text : List Char) (value : Json) : Prop :=
  ∃ tokens, Lexes text tokens ∧ Builds room tokens value

theorem readable_leaf (room : Nat) (text : List Char) (token : Token) (value : Json)
    (lexes : Lexes text [token]) (isLeaf : leaf? token = some value) : Readable room text value :=
  ⟨[token], lexes, leaf_builds room token value isLeaf⟩

/-- What follows the first item or field of a container touches no literal. -/
theorem behind_apart {α : Type} (rest : List α) (written : α → List Char) (c : Char) (mark : Token)
    (marks : mark? c = some mark) : Apart ((rest.flatMap fun item => ',' :: written item) ++ [c]) := by
  refine Apart.append ?_ (Token.mark_apart c mark marks [])
  cases rest with
  | nil => exact fun c more empty => absurd empty (List.cons_ne_nil c more).symm
  | cons item rest => exact Token.mark_apart ',' .comma rfl _

/-- The text behind the first item of an array is read to the end of this array. -/
theorem items_readable (room : Nat) (rest : List (List Char × Json))
    (each : ∀ item ∈ rest, Readable room item.1 item.2) :
    ∃ tokens, Lexes ((rest.flatMap fun item => ',' :: item.1) ++ [']']) tokens ∧
      ∀ held outer, outer.length + 1 + room ≤ depthLimit →
        tokens.foldlM step ⟨.array held :: outer, .more, .null⟩ =
          some (close outer (.array (held ++ rest.map Prod.snd))) := by
  induction rest with
  | nil =>
    refine ⟨[.closeArray], Lexes.mark ']' .closeArray [] [] rfl Lexes.nil, fun held outer _ => ?_⟩
    rw [List.map_nil, List.append_nil]
    rfl
  | cons item rest inductionHypothesis =>
    obtain ⟨⟨made, lexes, builds⟩, others⟩ := List.forall_mem_cons.mp each
    obtain ⟨later, behind, closes⟩ := inductionHypothesis others
    refine ⟨.comma :: (made ++ later), ?_, fun held outer enough => ?_⟩
    · have joined := Lexes.mark ',' .comma _ _ rfl
        (lexes.append behind (behind_apart rest Prod.fst ']' .closeArray rfl))
      simpa only [List.flatMap_cons, List.append_assoc, List.cons_append] using joined
    · have read := builds (.array held :: outer) .value (Or.inl rfl) (by simpa using enough)
      have comma : step ⟨.array held :: outer, .more, .null⟩ .comma =
          some ⟨.array held :: outer, .value, .null⟩ := rfl
      rw [foldlM_cons, comma, Option.bind_some, foldlM_append _ _ _ _ read]
      simpa [close] using closes (held ++ [item.2]) outer enough

/-- The text of a field, and of what is behind it, is read as the key and the value. -/
theorem member_readable (room : Nat) (member : Member) (behind : List Char) (later : List Token)
    (key : Lexes member.keyText [.text member.key]) (value : Readable room member.text member.value)
    (lexes : Lexes behind later) (apart : Apart behind) :
    ∃ tokens, Lexes (member.written ++ behind) (.text member.key :: .colon :: tokens ++ later) ∧
      Builds room tokens member.value := by
  obtain ⟨tokens, made, builds⟩ := value
  refine ⟨tokens, ?_, builds⟩
  have joined := key.append (Lexes.mark ':' .colon _ _ rfl (made.append lexes apart))
    (Token.mark_apart ':' .colon rfl _)
  simpa only [Member.written, List.append_assoc, List.cons_append, List.nil_append] using joined

/-- The text behind the first field of an object is read to the end of this object. -/
theorem members_readable (room : Nat) (rest : List Member)
    (keys : ∀ member ∈ rest, Lexes member.keyText [.text member.key])
    (values : ∀ member ∈ rest, Readable room member.text member.value) :
    ∃ tokens, Lexes ((rest.flatMap fun member => ',' :: member.written) ++ ['\x7d']) tokens ∧
      ∀ held outer, outer.length + 1 + room ≤ depthLimit →
        tokens.foldlM step ⟨.object held "" :: outer, .more, .null⟩ =
          some (close outer (.object (rest.foldl Member.enter held))) := by
  induction rest with
  | nil =>
    exact ⟨[.closeObject], Lexes.mark '\x7d' .closeObject [] [] rfl Lexes.nil, fun held outer _ => rfl⟩
  | cons member rest inductionHypothesis =>
    obtain ⟨key, otherKeys⟩ := List.forall_mem_cons.mp keys
    obtain ⟨value, otherValues⟩ := List.forall_mem_cons.mp values
    obtain ⟨later, behind, closes⟩ := inductionHypothesis otherKeys otherValues
    obtain ⟨made, lexes, builds⟩ := member_readable room member _ later key value behind
      (behind_apart rest Member.written '\x7d' .closeObject rfl)
    refine ⟨.comma :: .text member.key :: .colon :: (made ++ later), ?_, fun held outer enough => ?_⟩
    · have joined := Lexes.mark ',' .comma _ _ rfl lexes
      simpa only [List.flatMap_cons, List.append_assoc, List.cons_append] using joined
    · have read := builds (.object held member.key :: outer) .value (Or.inl rfl) (by simpa using enough)
      have opened : (Token.comma :: .text member.key :: .colon :: (made ++ later)).foldlM step
          ⟨.object held "" :: outer, .more, .null⟩ =
            (made ++ later).foldlM step ⟨.object held member.key :: outer, .value, .null⟩ := rfl
      rw [opened, foldlM_append _ _ _ _ read]
      exact closes (member.enter held) outer enough

/-- The text of a key is a single token. -/
theorem key_lexes (depth : Nat) (text : List Char) (key : String)
    (spells : Spells depth text (.text key)) : Lexes text [.text key] := by
  generalize isKey : Json.text key = value at spells
  induction spells with
  | text depth body characters inside =>
    obtain rfl := Json.text.inj isKey
    exact Lexes.string body characters [] [] inside Lexes.nil
  | spaced depth left text right value before behind inside inductionHypothesis =>
    exact (inductionHypothesis isKey).spaced before behind
  | _ => exact absurd isKey Json.noConfusion

/-- A literal is a single token. -/
theorem literal_lexes (literal : List Char) (token : Token) (plain : Number.Plain literal)
    (stands : Token.ofLiteral? literal = some token) : Lexes literal [token] := by
  have whole := Lexes.literal literal [] token [] plain stands (by simp) Lexes.nil
  rwa [List.append_nil] at whole

/-- A number is none of the three words. -/
theorem ofLiteral?_number (literal : List Char) (number : Number)
    (read : Number.read? literal = some number) :
    Token.ofLiteral? literal = some (.number number) := by
  have noWord (word : List Char) (unread : Number.read? word = none) : literal ≠ word := by
    rintro rfl
    simp [unread] at read
  rw [Token.ofLiteral?, if_neg (noWord _ (by decide)), if_neg (noWord _ (by decide)),
    if_neg (noWord _ (by decide)), read, Option.map_some]

/-- The text of a value is read as this value. The induction is on how the text is made:
each array and object takes one from the room that is left. -/
theorem spells_readable (depth : Nat) (text : List Char) (value : Json)
    (spells : Spells depth text value) : Readable depth text value := by
  induction spells with
  | null depth => exact readable_leaf depth _ .null .null (literal_lexes _ _ (by decide) rfl) rfl
  | bool depth value =>
    refine readable_leaf depth _ (.bool value) (.bool value) (literal_lexes _ _ ?_ ?_) rfl <;>
      cases value <;> decide
  | number depth literal parts number spelled means =>
    have read := (Number.read?_iff literal number).mpr ⟨parts, spelled, means⟩
    exact readable_leaf depth literal (.number number) _
      (literal_lexes literal _ spelled.plain (ofLiteral?_number literal number read)) rfl
  | text depth body characters inside =>
    exact readable_leaf depth _ (.text (String.ofList characters)) _
      (Lexes.string body characters [] [] inside Lexes.nil) rfl
  | spaced depth left text right value before behind inside inductionHypothesis =>
    obtain ⟨tokens, lexes, builds⟩ := inductionHypothesis
    exact ⟨tokens, lexes.spaced before behind, builds⟩
  | emptyArray depth space blank =>
    have closed := Lexes.mark ']' .closeArray [] [] rfl Lexes.nil
    have spaced := ((Token.lexes_nil space).mpr blank).append closed (Token.mark_apart ']' _ rfl [])
    refine ⟨[.openArray, .closeArray], Lexes.mark '[' .openArray _ _ rfl spaced, ?_⟩
    intro frames expecting isValue enough
    have opened := step_open .openArray (.array []) .valueOrClose (fun _ => rfl) (by decide) frames
      expecting isValue (by omega)
    rw [foldlM_cons, opened]
    rfl
  | array depth first rest inside inductionHypothesis =>
    obtain ⟨⟨made, lexes, builds⟩, others⟩ := List.forall_mem_cons.mp inductionHypothesis
    obtain ⟨later, behind, closes⟩ := items_readable depth rest others
    refine ⟨.openArray :: (made ++ later), ?_, fun frames expecting isValue enough => ?_⟩
    · have joined := Lexes.mark '[' .openArray _ _ rfl
        (lexes.append behind (behind_apart rest Prod.fst ']' .closeArray rfl))
      simpa only [List.append_assoc, List.cons_append] using joined
    · have opened := step_open .openArray (.array []) .valueOrClose (fun _ => rfl) (by decide) frames
        expecting isValue (by omega)
      have read := builds (.array [] :: frames) .valueOrClose (Or.inr rfl)
        (by rw [List.length_cons]; omega)
      rw [foldlM_cons, opened, Option.bind_some, foldlM_append _ _ _ _ read]
      exact closes [first.2] frames (by omega)
  | emptyObject depth space blank =>
    have closed := Lexes.mark '\x7d' .closeObject [] [] rfl Lexes.nil
    have spaced := ((Token.lexes_nil space).mpr blank).append closed (Token.mark_apart '\x7d' _ rfl [])
    refine ⟨[.openObject, .closeObject], Lexes.mark '\x7b' .openObject _ _ rfl spaced, ?_⟩
    intro frames expecting isValue enough
    have opened := step_open .openObject (.object [] "") .keyOrClose (fun _ => rfl) (by decide) frames
      expecting isValue (by omega)
    rw [foldlM_cons, opened]
    rfl
  | object depth first rest keys values keysRead valuesRead =>
    obtain ⟨key, otherKeys⟩ := List.forall_mem_cons.mp fun member inside =>
      key_lexes depth _ _ (keys member inside)
    obtain ⟨value, others⟩ := List.forall_mem_cons.mp valuesRead
    obtain ⟨later, behind, closes⟩ := members_readable depth rest otherKeys others
    obtain ⟨made, lexes, builds⟩ := member_readable depth first _ later key value behind
      (behind_apart rest Member.written '\x7d' .closeObject rfl)
    refine ⟨.openObject :: .text first.key :: .colon :: (made ++ later), ?_,
      fun frames expecting isValue enough => ?_⟩
    · have joined := Lexes.mark '\x7b' .openObject _ _ rfl lexes
      simpa only [List.append_assoc, List.cons_append] using joined
    · have opened := step_open .openObject (.object [] "") .keyOrClose (fun _ => rfl) (by decide)
        frames expecting isValue (by omega)
      have read := builds (.object [] first.key :: frames) .value (Or.inl rfl)
        (by rw [List.length_cons]; omega)
      have keyed : (Token.text first.key :: .colon :: (made ++ later)).foldlM step
          ⟨.object [] "" :: frames, .keyOrClose, .null⟩ =
            (made ++ later).foldlM step ⟨.object [] first.key :: frames, .value, .null⟩ := rfl
      rw [foldlM_cons, opened, Option.bind_some, keyed, foldlM_append _ _ _ _ read]
      exact closes (first.enter []) frames (by omega)

end Reading
end BuildWatch.Json
