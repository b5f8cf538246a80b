import BuildWatch.Proofs.Json.Building

/-!
# What is read is what the grammar says

When reading comes to an end, the tokens that were read from any point on begin with those
of one value, or with those of the rest of a container. A run of tokens is known by the
texts it is cut from: every text of these tokens is one that the grammar has for the value.
Texts are taken apart at their marks just as the reader takes the tokens.

With the other direction, that every text of the grammar is read, the reader is shown to
read the grammar and nothing else.
-/

namespace BuildWatch.Json

open Token (Lexes Apart leaf? mark?)

namespace Reading

/-- Every text of some tokens spells a value. -/
def Derives (room : Nat) (tokens : List Token) (value : Json) : Prop :=
  ∀ text, Lexes text tokens → Spells room text value

/-- Reading these tokens where a value has to begin, to the end of a whole text, takes the
tokens of one value off and goes on behind it. -/
def ValueTaken (tokens : List Token) : Prop :=
  ∀ frames final, tokens.foldlM step ⟨frames, .value, .null⟩ = some final →
    final.expecting = .nothing →
    ∃ made value rest, tokens = made ++ rest ∧ Derives (depthLimit - frames.length) made value ∧
      rest.foldlM step (close frames value) = some final

/-- Reading does not end before the value is whole. -/
theorem not_ended (reading final : Reading) (unfinished : reading.expecting ≠ .nothing)
    (taken : ([] : List Token).foldlM step reading = some final) : final.expecting ≠ .nothing := by
  obtain rfl := Option.some.inj taken
  exact unfinished

/-- What is read behind an item of an open array are other items and the end of the array. -/
theorem items_taken (size : Nat) (shorter : ∀ tokens, tokens.length < size → ValueTaken tokens)
    (outer : List Frame) (final : Reading) (done : final.expecting = .nothing) (tokens : List Token)
    (held : List Json) (within : tokens.length ≤ size)
    (taken : tokens.foldlM step ⟨.array held :: outer, .more, .null⟩ = some final) :
    ∃ (items : List (List Token × Json)) (rest : List Token),
      tokens = (items.flatMap fun item => .comma :: item.1) ++ .closeArray :: rest ∧
      (∀ item ∈ items, Derives (depthLimit - (outer.length + 1)) item.1 item.2) ∧
      rest.foldlM step (close outer (.array (held ++ items.map Prod.snd))) = some final := by
  induction length : tokens.length using Nat.strongRecOn generalizing tokens held with
  | ind _ inductionHypothesis =>
    cases tokens with
    | nil => exact absurd done (not_ended _ final Expecting.noConfusion taken)
    | cons token rest =>
      rw [List.length_cons] at length within
      rw [foldlM_cons] at taken
      obtain ⟨next, stepped, taken⟩ := Option.bind_eq_some_iff.mp taken
      cases token with
      | comma =>
        obtain rfl := Option.some.inj stepped
        obtain ⟨made, value, behind, rfl, derives, later⟩ :=
          shorter rest (by omega) (.array held :: outer) final taken done
        rw [List.length_append] at length within
        obtain ⟨items, last, rfl, others, later⟩ := inductionHypothesis behind.length (by omega)
          behind (held ++ [value]) (by omega) later rfl
        refine ⟨(made, value) :: items, last, by simp, List.forall_mem_cons.mpr ⟨derives, others⟩, ?_⟩
        simpa using later
      | closeArray =>
        obtain rfl := Option.some.inj stepped
        exact ⟨[], rest, rfl, by simp, by simpa using taken⟩
      | _ => exact absurd stepped (Option.some_ne_none next).symm

/-- The tokens of a field, and its value. -/
structure Field where
  key : String
  made : List Token
  value : Json

/-- All tokens of a field. -/
def Field.tokens (field : Field) : List Token := .text field.key :: .colon :: field.made

/-- Write a field into those that an object has. -/
def Field.enter (fields : List (String × Json)) (field : Field) : List (String × Json) :=
  putField field.key field.value fields

/-- What is read where a key has to stand are a key and a colon. -/
theorem key_taken (outer : List Frame) (final : Reading) (done : final.expecting = .nothing)
    (tokens : List Token) (held : List (String × Json)) (expecting : Expecting)
    (isKey : expecting = .key ∨ expecting = .keyOrClose ∧ ∀ rest, tokens ≠ .closeObject :: rest)
    (taken : tokens.foldlM step ⟨.object held "" :: outer, expecting, .null⟩ = some final) :
    ∃ (key : String) (rest : List Token), tokens = .text key :: .colon :: rest ∧
      rest.foldlM step ⟨.object held key :: outer, .value, .null⟩ = some final := by
  have started : expecting ≠ .nothing := by
    rcases isKey with rfl | ⟨rfl, -⟩ <;> exact Expecting.noConfusion
  cases tokens with
  | nil => exact absurd done (not_ended _ final started taken)
  | cons token rest =>
    rw [foldlM_cons] at taken
    obtain ⟨next, stepped, later⟩ := Option.bind_eq_some_iff.mp taken
    have isKeyed : step.takeKey ⟨.object held "" :: outer, expecting, .null⟩ token = some next := by
      rw [← stepped]
      rcases isKey with rfl | ⟨rfl, noClose⟩
      · rfl
      · cases token <;> first | rfl | exact absurd rfl (noClose rest)
    cases token with
    | text key =>
      obtain rfl := Option.some.inj isKeyed
      cases rest with
      | nil => exact absurd done (not_ended _ final Expecting.noConfusion later)
      | cons token rest =>
        rw [foldlM_cons] at later
        obtain ⟨next, stepped, later⟩ := Option.bind_eq_some_iff.mp later
        cases token with
        | colon =>
          obtain rfl := Option.some.inj stepped
          exact ⟨key, rest, rfl, later⟩
        | _ => exact absurd stepped (Option.some_ne_none next).symm
    | _ => exact absurd isKeyed (Option.some_ne_none next).symm

/-- What is read behind a field of an open object are other fields and the end of the object. -/
theorem fields_taken (size : Nat) (shorter : ∀ tokens, tokens.length < size → ValueTaken tokens)
    (outer : List Frame) (final : Reading) (done : final.expecting = .nothing) (tokens : List Token)
    (held : List (String × Json)) (within : tokens.length ≤ size)
    (taken : tokens.foldlM step ⟨.object held "" :: outer, .more, .null⟩ = some final) :
    ∃ (fields : List Field) (rest : List Token),
      tokens = (fields.flatMap fun field => .comma :: field.tokens) ++ .closeObject :: rest ∧
      (∀ field ∈ fields, Derives (depthLimit - (outer.length + 1)) field.made field.value) ∧
      rest.foldlM step (close outer (.object (fields.foldl Field.enter held))) = some final := by
  induction length : tokens.length using Nat.strongRecOn generalizing tokens held with
  | ind _ inductionHypothesis =>
    cases tokens with
    | nil => exact absurd done (not_ended _ final Expecting.noConfusion taken)
    | cons token rest =>
      rw [List.length_cons] at length within
      rw [foldlM_cons] at taken
      obtain ⟨next, stepped, taken⟩ := Option.bind_eq_some_iff.mp taken
      cases token with
      | comma =>
        obtain rfl := Option.some.inj stepped
        obtain ⟨key, rest, rfl, taken⟩ :=
          key_taken outer final done rest held .key (Or.inl rfl) taken
        simp only [List.length_cons] at length within
        obtain ⟨made, value, behind, rfl, derives, later⟩ :=
          shorter rest (by omega) (.object held key :: outer) final taken done
        rw [List.length_append] at length within
        obtain ⟨fields, last, rfl, others, later⟩ := inductionHypothesis behind.length (by omega)
          behind (putField key value held) (by omega) later rfl
        exact ⟨⟨key, made, value⟩ :: fields, last, by simp [Field.tokens],
          List.forall_mem_cons.mpr ⟨derives, others⟩, later⟩
      | closeObject =>
        obtain rfl := Option.some.inj stepped
        exact ⟨[], rest, rfl, by simp, taken⟩
      | _ => exact absurd stepped (Option.some_ne_none next).symm

/-- The text of an item and of those behind it is the texts of all of them. -/
theorem items_text (room : Nat) (items : List (List Token × Json))
    (each : ∀ item ∈ items, Derives room item.1 item.2) (first : List Token) (text : List Char)
    (lexes : Lexes text (first ++ items.flatMap fun item => .comma :: item.1)) :
    ∃ (front : List Char) (rest : List (List Char × Json)),
      text = front ++ (rest.flatMap fun item => ',' :: item.1) ∧ Lexes front first ∧
      rest.map Prod.snd = items.map Prod.snd ∧ ∀ item ∈ rest, Spells room item.1 item.2 := by
  induction items generalizing first text with
  | nil => exact ⟨text, [], by simp, by simpa using lexes, rfl, by simp⟩
  | cons item items inductionHypothesis =>
    obtain ⟨derives, others⟩ := List.forall_mem_cons.mp each
    obtain ⟨front, behind, rfl, before, after⟩ := Lexes.split first .comma _ ',' rfl lexes
    obtain ⟨own, rest, rfl, lexed, same, spelled⟩ := inductionHypothesis others item.1 behind after
    exact ⟨front, (own, item.2) :: rest, by simp, before, by simp [same],
      List.forall_mem_cons.mpr ⟨derives own lexed, spelled⟩⟩

/-- The text of a field is that of its key and that of its value. -/
theorem field_text (room : Nat) (field : Field) (derives : Derives room field.made field.value)
    (text : List Char) (lexes : Lexes text field.tokens) :
    ∃ member : Member, text = member.written ∧ member.key = field.key ∧ member.value = field.value ∧
      Spells room member.keyText (.text member.key) ∧ Spells room member.text member.value := by
  obtain ⟨keyText, own, rfl, before, after⟩ := Lexes.split [.text field.key] .colon field.made ':' rfl lexes
  exact ⟨⟨keyText, field.key, own, field.value⟩, rfl, rfl, rfl, before.leaf room _ rfl,
    derives own after⟩

/-- The text of a field and of those behind it is the texts of all of them. -/
theorem fields_text (room : Nat) (fields : List Field)
    (each : ∀ field ∈ fields, Derives room field.made field.value) (first : List Token)
    (text : List Char) (lexes : Lexes text (first ++ fields.flatMap fun field => .comma :: field.tokens)) :
    ∃ (front : List Char) (rest : List Member),
      text = front ++ (rest.flatMap fun member => ',' :: member.written) ∧ Lexes front first ∧
      (∀ held, rest.foldl Member.enter held = fields.foldl Field.enter held) ∧
      (∀ member ∈ rest, Spells room member.keyText (.text member.key)) ∧
      ∀ member ∈ rest, Spells room member.text member.value := by
  induction fields generalizing first text with
  | nil => exact ⟨text, [], by simp, by simpa using lexes, fun _ => rfl, by simp, by simp⟩
  | cons field fields inductionHypothesis =>
    obtain ⟨derives, others⟩ := List.forall_mem_cons.mp each
    obtain ⟨front, behind, rfl, before, after⟩ := Lexes.split first .comma _ ',' rfl lexes
    obtain ⟨own, rest, rfl, lexed, same, keys, values⟩ :=
      inductionHypothesis others field.tokens behind after
    obtain ⟨member, rfl, key, value, keySpelled, valueSpelled⟩ := field_text room field derives own lexed
    refine ⟨front, member :: rest, by simp, before, fun held => ?_,
      List.forall_mem_cons.mpr ⟨keySpelled, keys⟩, List.forall_mem_cons.mpr ⟨valueSpelled, values⟩⟩
    rw [List.foldl_cons, same, List.foldl_cons, Member.enter, key, value]
    rfl

/-- A text between two marks stands between their characters, with white space around. -/
theorem between_marks (first last : Token) (c d : Char) (opens : mark? c = some first)
    (closes : mark? d = some last) (tokens : List Token) (text : List Char)
    (lexes : Lexes text (first :: (tokens ++ [last]))) :
    ∃ left inside right, text = left ++ (c :: inside ++ [d]) ++ right ∧ Blank left ∧ Blank right ∧
      Lexes inside tokens := by
  obtain ⟨left, behind, rfl, before, after⟩ := Lexes.split [] first _ c opens lexes
  obtain ⟨inside, right, rfl, within, last⟩ := Lexes.split tokens last [] d closes after
  exact ⟨left, inside, right, by simp, (Token.lexes_nil left).mp before,
    (Token.lexes_nil right).mp last, within⟩

theorem emptyArray_derives (room : Nat) : Derives (room + 1) [.openArray, .closeArray] (.array []) := by
  intro text lexes
  obtain ⟨left, space, right, rfl, before, behind, within⟩ :=
    between_marks .openArray .closeArray '[' ']' rfl rfl [] text lexes
  exact Spells.spaced _ left _ right _ before behind
    (Spells.emptyArray room space ((Token.lexes_nil space).mp within))

theorem array_derives (room : Nat) (first : List Token) (value : Json)
    (items : List (List Token × Json)) (derives : Derives room first value)
    (each : ∀ item ∈ items, Derives room item.1 item.2) :
    Derives (room + 1)
      (.openArray :: ((first ++ items.flatMap fun item => .comma :: item.1) ++ [.closeArray]))
      (.array (value :: items.map Prod.snd)) := by
  intro text lexes
  obtain ⟨left, inside, right, rfl, before, behind, within⟩ :=
    between_marks .openArray .closeArray '[' ']' rfl rfl _ text lexes
  obtain ⟨front, rest, rfl, lexed, same, spelled⟩ := items_text room items each first inside within
  refine Spells.spaced _ left _ right _ before behind ?_
  rw [← same]
  exact Spells.array room (front, value) rest
    (List.forall_mem_cons.mpr ⟨derives front lexed, spelled⟩)

theorem emptyObject_derives (room : Nat) :
    Derives (room + 1) [.openObject, .closeObject] (.object []) := by
  intro text lexes
  obtain ⟨left, space, right, rfl, before, behind, within⟩ :=
    between_marks .openObject .closeObject '\x7b' '\x7d' rfl rfl [] text lexes
  exact Spells.spaced _ left _ right _ before behind
    (Spells.emptyObject room space ((Token.lexes_nil space).mp within))

theorem object_derives (room : Nat) (first : Field) (fields : List Field)
    (derives : Derives room first.made first.value)
    (each : ∀ field ∈ fields, Derives room field.made field.value) :
    Derives (room + 1)
      (.openObject :: ((first.tokens ++ fields.flatMap fun field => .comma :: field.tokens) ++
        [.closeObject]))
      (.object (fields.foldl Field.enter (first.enter []))) := by
  intro text lexes
  obtain ⟨left, inside, right, rfl, before, behind, within⟩ :=
    between_marks .openObject .closeObject '\x7b' '\x7d' rfl rfl _ text lexes
  obtain ⟨front, rest, rfl, lexed, same, keys, values⟩ :=
    fields_text room fields each first.tokens inside within
  obtain ⟨member, rfl, key, value, keySpelled, valueSpelled⟩ := field_text room first derives front lexed
  refine Spells.spaced _ left _ right _ before behind ?_
  have entered : member.enter [] = first.enter [] := by rw [Member.enter, key, value]; rfl
  rw [← same, ← entered]
  exact Spells.object room member rest (List.forall_mem_cons.mpr ⟨keySpelled, keys⟩)
    (List.forall_mem_cons.mpr ⟨valueSpelled, values⟩)

/-- An array or object that is begun leaves less room inside. -/
theorem enter_taken (frames : List Frame) (frame : Frame) (expecting : Expecting) (next : Reading)
    (entered : enter frames frame expecting = some next) :
    next = ⟨frame :: frames, expecting, .null⟩ ∧
      depthLimit - frames.length = depthLimit - (frames.length + 1) + 1 := by
  obtain ⟨room, same⟩ := Option.ite_none_right_eq_some.mp entered
  exact ⟨(Option.some.inj same).symm, by omega⟩

/-- What is read behind the mark that begins an array is this array. -/
theorem array_taken (size : Nat) (shorter : ∀ tokens, tokens.length < size → ValueTaken tokens)
    (frames : List Frame) (final : Reading) (done : final.expecting = .nothing) (tokens : List Token)
    (within : tokens.length < size)
    (taken : tokens.foldlM step ⟨.array [] :: frames, .valueOrClose, .null⟩ = some final) :
    ∃ made value rest, tokens = made ++ rest ∧
      Derives (depthLimit - (frames.length + 1) + 1) (.openArray :: made) value ∧
      rest.foldlM step (close frames value) = some final := by
  by_cases closes : ∃ rest, tokens = .closeArray :: rest
  · obtain ⟨rest, rfl⟩ := closes
    exact ⟨[.closeArray], .array [], rest, rfl, emptyArray_derives _, taken⟩
  have begun : tokens.foldlM step ⟨.array [] :: frames, .value, .null⟩ = some final := by
    cases tokens with
    | nil => exact absurd done (not_ended _ final Expecting.noConfusion taken)
    | cons token rest =>
      rw [← taken, foldlM_cons, foldlM_cons]
      cases token <;> first | rfl | exact absurd ⟨rest, rfl⟩ closes
  obtain ⟨first, value, behind, rfl, derives, later⟩ :=
    shorter tokens within (.array [] :: frames) final begun done
  rw [List.length_append] at within
  obtain ⟨items, rest, rfl, each, later⟩ :=
    items_taken size shorter frames final done behind [value] (by omega) later
  exact ⟨(first ++ items.flatMap fun item => .comma :: item.1) ++ [.closeArray], _, rest, by simp,
    array_derives _ first value items derives each, later⟩

/-- What is read behind the mark that begins an object is this object. -/
theorem object_taken (size : Nat) (shorter : ∀ tokens, tokens.length < size → ValueTaken tokens)
    (frames : List Frame) (final : Reading) (done : final.expecting = .nothing) (tokens : List Token)
    (within : tokens.length < size)
    (taken : tokens.foldlM step ⟨.object [] "" :: frames, .keyOrClose, .null⟩ = some final) :
    ∃ made value rest, tokens = made ++ rest ∧
      Derives (depthLimit - (frames.length + 1) + 1) (.openObject :: made) value ∧
      rest.foldlM step (close frames value) = some final := by
  by_cases closes : ∃ rest, tokens = .closeObject :: rest
  · obtain ⟨rest, rfl⟩ := closes
    exact ⟨[.closeObject], .object [], rest, rfl, emptyObject_derives _, taken⟩
  obtain ⟨key, valued, rfl, begun⟩ := key_taken frames final done tokens [] .keyOrClose
    (Or.inr ⟨rfl, not_exists.mp closes⟩) taken
  simp only [List.length_cons] at within
  obtain ⟨made, value, behind, rfl, derives, later⟩ :=
    shorter valued (by omega) (.object [] key :: frames) final begun done
  rw [List.length_append] at within
  obtain ⟨fields, rest, rfl, each, later⟩ :=
    fields_taken size shorter frames final done behind [(key, value)] (by omega) later
  exact ⟨(Field.tokens ⟨key, made, value⟩ ++ fields.flatMap fun field => .comma :: field.tokens) ++
    [.closeObject], _, rest, by simp [Field.tokens],
    object_derives _ ⟨key, made, value⟩ fields derives each, later⟩

/-- Where a value has to begin a whole one is read. The induction is on how many tokens
there are: an item or a field has fewer than the container that it is in. -/
theorem value_taken (tokens : List Token) : ValueTaken tokens := by
  induction length : tokens.length using Nat.strongRecOn generalizing tokens with
  | ind size inductionHypothesis =>
    have shorter : ∀ others : List Token, others.length < size → ValueTaken others :=
      fun others less => inductionHypothesis others.length less others rfl
    intro frames final taken done
    cases tokens with
    | nil => exact absurd done (not_ended _ final Expecting.noConfusion taken)
    | cons token rest =>
      have within : rest.length < size := by rw [← length]; exact Nat.lt_succ_self _
      rw [foldlM_cons] at taken
      obtain ⟨next, stepped, later⟩ := Option.bind_eq_some_iff.mp taken
      cases token with
      | null | bool | number | text =>
        obtain rfl := Option.some.inj stepped
        exact ⟨[_], _, rest, rfl, fun text lexes => lexes.leaf _ _ rfl, later⟩
      | openArray =>
        obtain ⟨rfl, room⟩ := enter_taken frames _ _ next stepped
        obtain ⟨made, value, behind, rfl, derives, later⟩ :=
          array_taken size shorter frames final done rest within later
        rw [← room] at derives
        exact ⟨.openArray :: made, value, behind, rfl, derives, later⟩
      | openObject =>
        obtain ⟨rfl, room⟩ := enter_taken frames _ _ next stepped
        obtain ⟨made, value, behind, rfl, derives, later⟩ :=
          object_taken size shorter frames final done rest within later
        rw [← room] at derives
        exact ⟨.openObject :: made, value, behind, rfl, derives, later⟩
      | _ => exact absurd stepped (Option.some_ne_none next).symm

end Reading

/-- The texts that are read are those of the grammar, and each is read as the value that it
spells.

Proof: the tokens of a text are those that the scanner finds. From the tokens of a text of
the grammar the reader makes its value. In the other direction, one whole value is read
from the start, and nothing may be left behind it. -/
theorem read?_iff (text : String) (value : Json) :
    read? text = some value ↔ Document text.toList value := by
  constructor
  · intro read
    obtain ⟨tokens, cut, built⟩ := Option.bind_eq_some_iff.mp read
    obtain ⟨final, taken, finished⟩ := Option.bind_eq_some_iff.mp built
    have done : final.expecting = .nothing ∧ final.value = value := by
      unfold Reading.finish at finished
      split at finished
      · exact ⟨‹_›, Option.some.inj finished⟩
      · exact absurd finished (Option.some_ne_none value).symm
    obtain ⟨made, own, rest, rfl, derives, later⟩ :=
      Reading.value_taken tokens [] final taken done.1
    have nothingLeft : rest = [] ∧ own = value := by
      cases rest with
      | nil =>
        obtain rfl := Option.some.inj later
        exact ⟨rfl, done.2⟩
      | cons token rest => exact absurd later (Option.some_ne_none final).symm
    obtain ⟨rfl, rfl⟩ := nothingLeft
    rw [List.append_nil] at cut
    exact derives text.toList ((Token.tokens?_iff text.toList made).mp cut)
  · intro document
    obtain ⟨tokens, lexes, builds⟩ := Reading.spells_readable depthLimit text.toList value document
    have built : tokens.foldlM Reading.step Reading.start = some ⟨[], .nothing, value⟩ :=
      builds [] .value (Or.inl rfl) (Nat.le_of_eq (Nat.zero_add _))
    rw [read?, (Token.tokens?_iff _ _).mpr lexes, Option.bind_some, ofTokens?, built]
    rfl

end BuildWatch.Json
