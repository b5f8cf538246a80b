import BuildWatch.Proofs.Json.Document
import BuildWatch.Proofs.Message.Denotation

/-!
# What every line is taken for

A line is a response exactly when it is a text of the grammar for a value that denotes this
response. Of the other lines it is said what is wrong with them: the line is no text, its
value has no type, its type is none of those known, or something in it does not fit. The
last of these is never confused with the first two, because what goes wrong inside a
value is always put down to this value or to a field that is missing.
-/

namespace BuildWatch

namespace SchemaFault

/-- A text begins with another one. -/
def Begins (first text : String) : Prop := ∃ rest, text = first ++ rest

theorem begins_append (first rest : String) : Begins first (first ++ rest) := ⟨rest, rfl⟩

theorem Begins.append {first text : String} (begins : Begins first text) (more : String) :
    Begins first (text ++ more) := by
  obtain ⟨rest, rfl⟩ := begins
  exact ⟨rest ++ more, String.append_assoc ..⟩

/-- A text that begins otherwise is another text. -/
theorem Begins.ne {first text other : String} (begins : Begins first text)
    (differs : other.toList.take first.toList.length ≠ first.toList) : text ≠ other := by
  obtain ⟨rest, rfl⟩ := begins
  rintro rfl
  rw [String.toList_append, List.take_left] at differs
  exact differs rfl

/-- Only of a value without a type is it said that it has none. -/
theorem message_noType (cause : SchemaFault) :
    cause.message = "missing string field `type`" ↔ cause = .noType := by
  constructor
  · intro same
    have other {first : String} (begins : Begins first cause.message)
        (differs : "missing string field `type`".toList.take first.toList.length ≠ first.toList) :
        cause = .noType := absurd same (begins.ne differs)
    cases cause with
    | noType => rfl
    | notJson => exact absurd same (show "not a JSON text" ≠ _ by decide)
    | notSingleKey =>
      exact absurd same (show "invalid value: map, expected map with a single key" ≠ _ by decide)
    | missing field => exact other ((begins_append _ _).append _) (by decide)
    | unknownSeverity name => exact other ((begins_append _ _).append _) (by decide)
    | wrongType found expected => exact other (((begins_append _ _).append _).append _) (by decide)
    | outOfRange value expected => exact other (((begins_append _ _).append _).append _) (by decide)
    | tooShort length record arity =>
      exact other ((((((begins_append _ _).append _).append _).append _).append _).append _) (by decide)
    | tooLong length arity =>
      exact other (((((begins_append _ _).append _).append _).append _).append _) (by decide)
  · rintro rfl
    rfl

end SchemaFault

namespace Response

/-- A value denotes a response when it is an object with the type of this response and
with fields that denote it. -/
inductive Denotes : Json → Response → Prop where
  | compile (fields : List (String × Json)) (result : CompileResult)
      (type : fields.lookup "type" = some (.text "compile"))
      (denotes : CompileResult.Denotes fields result) : Denotes (.object fields) (.compile result)
  | tooltip (fields : List (String × Json)) (result : TooltipResult)
      (type : fields.lookup "type" = some (.text "tooltip-query"))
      (denotes : TooltipResult.Denotes fields result) : Denotes (.object fields) (.tooltip result)

/-- What denotes a response has the type of this response. -/
theorem Denotes.type {value : Json} {response : Response} (denotes : Denotes value response) :
    value.field? "type" = some (.text response.kind.label) := by
  cases denotes with
  | compile fields result type => exact type
  | tooltip fields result type => exact type

/-- What is read from the fields of a known type is read for the response, or fails for a
cause that is about these fields. -/
inductive Taken (line : String) (value : Json) : Except WorkerFault Response → Prop where
  | untyped (noType : ∀ kind, value.field? "type" ≠ some (.text kind)) :
      Taken line value (.error (.malformed line .noType))
  | unknown (kind : String) (type : value.field? "type" = some (.text kind))
      (noCompile : kind ≠ "compile") (noTooltip : kind ≠ "tooltip-query") :
      Taken line value (.error (.unknownKind kind))
  | response (response : Response) (denotes : Denotes value response) :
      Taken line value (.ok response)
  | misfit (kind : RequestKind) (cause : SchemaFault)
      (type : value.field? "type" = some (.text kind.label)) (about : cause.AboutValue) :
      Taken line value (.error (.malformed line cause))

/-- What is read from a value is what it is taken for. -/
theorem ofJson_taken (line : String) (value : Json) (keyed : Json.Keyed value) :
    Taken line value (ofJson line value) := by
  unfold ofJson
  split
  · rename_i fields
    split
    · rename_i kind type
      split_ifs with compile tooltip
      · subst compile
        cases read : CompileResult.read fields with
        | ok result =>
          exact Taken.response _ (Denotes.compile fields result type
            ((CompileResult.read_denotes fields keyed result).mp read))
        | error cause =>
          exact Taken.misfit .compile cause type (CompileResult.read_strict fields cause read)
      · subst tooltip
        cases read : TooltipResult.read fields with
        | ok result =>
          exact Taken.response _ (Denotes.tooltip fields result type
            ((TooltipResult.read_denotes fields keyed result).mp read))
        | error cause =>
          exact Taken.misfit .tooltip cause type (TooltipResult.read_strict fields cause read)
      · exact Taken.unknown kind type compile tooltip
    · rename_i noText
      exact Taken.untyped noText
  · rename_i noObject
    refine Taken.untyped fun kind type => ?_
    cases value with
    | object fields => exact noObject fields rfl
    | _ => exact absurd type (by simp [Json.field?])

/-- A response is read from the values that denote it. -/
theorem ofJson_ok (line : String) (value : Json) (keyed : Json.Keyed value) (response : Response) :
    ofJson line value = .ok response ↔ Denotes value response := by
  constructor
  · intro read
    have taken := ofJson_taken line value keyed
    rw [read] at taken
    cases taken with
    | response _ denotes => exact denotes
  · intro denotes
    cases denotes with
    | compile fields result type denotes =>
      have read := (CompileResult.read_denotes fields keyed result).mpr denotes
      simp only [ofJson, type, read]
      rfl
    | tooltip fields result type denotes =>
      have read := (TooltipResult.read_denotes fields keyed result).mpr denotes
      simp only [ofJson, type, read]
      rfl

theorem ofJson_untyped (line : String) (value : Json) (keyed : Json.Keyed value) :
    (∃ cause, ofJson line value = .error (.malformed line cause) ∧
        cause.message = "missing string field `type`") ↔
      ∀ kind, value.field? "type" ≠ some (.text kind) := by
  have taken := ofJson_taken line value keyed
  simp only [SchemaFault.message_noType, exists_eq_right]
  constructor
  · intro untyped
    rw [untyped] at taken
    cases taken with
    | untyped noType => exact noType
    | misfit kind cause type about => exact about.elim
  · intro noType
    generalize ofJson line value = result at taken
    cases taken with
    | untyped => rfl
    | unknown kind type => exact absurd type (noType kind)
    | response response denotes => exact absurd denotes.type (noType _)
    | misfit kind cause type => exact absurd type (noType _)

theorem ofJson_unknown (line : String) (value : Json) (keyed : Json.Keyed value) (kind : String) :
    ofJson line value = .error (.unknownKind kind) ↔
      value.field? "type" = some (.text kind) ∧ kind ≠ "compile" ∧ kind ≠ "tooltip-query" := by
  have taken := ofJson_taken line value keyed
  constructor
  · intro unknown
    rw [unknown] at taken
    cases taken with
    | unknown _ type noCompile noTooltip => exact ⟨type, noCompile, noTooltip⟩
  · rintro ⟨type, noCompile, noTooltip⟩
    have noKind (known : RequestKind) : value.field? "type" ≠ some (.text known.label) := by
      rw [type]
      rintro ⟨⟩
      cases known with
      | compile => exact noCompile rfl
      | tooltip => exact noTooltip rfl
    generalize ofJson line value = result at taken
    cases taken with
    | untyped noType => exact absurd type (noType kind)
    | unknown other also =>
      obtain rfl : kind = other := by simpa [type] using also
      rfl
    | response response denotes => exact absurd denotes.type (noKind _)
    | misfit known cause known_type => exact absurd known_type (noKind known)

/-- Every line is taken for exactly what the grammar and the declarations say. It is
malformed as a text when it is no JSON text, and malformed for want of a type when it is
one but not of an object whose type is a text. With another type than the two known it is a
response of an unknown kind, whatever else it holds. It is read as a response exactly when
its value denotes this response. And every other line is malformed, too, and carried by the
fault.

Proof: the reader of texts agrees with the grammar, so a line stands for one value at most,
and in this value the keys of every object differ. What is read from it is what it is taken
for, and a fault inside the value is never one of the first two. -/
theorem read_classifies (line : String) :
    (read line = .error (.malformed line .notJson) ↔ ¬ ∃ value, Json.Document line.toList value) ∧
      ((∃ cause, read line = .error (.malformed line cause) ∧
          cause.message = "missing string field `type`") ↔
        ∃ value, Json.Document line.toList value ∧ ∀ kind, value.field? "type" ≠ some (.text kind)) ∧
      (∀ kind, read line = .error (.unknownKind kind) ↔
        ∃ value, Json.Document line.toList value ∧ value.field? "type" = some (.text kind) ∧
          kind ≠ "compile" ∧ kind ≠ "tooltip-query") ∧
      (∀ response, read line = .ok response ↔
        ∃ value, Json.Document line.toList value ∧ Denotes value response) ∧
      ((∃ response, read line = .ok response) ∨ (∃ kind, read line = .error (.unknownKind kind)) ∨
        ∃ cause, read line = .error (.malformed line cause)) := by
  cases text : Json.read? line with
  | none =>
    have noDocument : ∀ value, ¬ Json.Document line.toList value := by
      intro value document
      rw [← Json.read?_iff, text] at document
      exact absurd document (Option.some_ne_none value).symm
    have failed : read line = .error (.malformed line .notJson) := by rw [read, text]
    simp [failed, noDocument, SchemaFault.message_noType]
  | some value =>
    have document := (Json.read?_iff line value).mp text
    have keyed := document.keyed
    have only (property : Json → Prop) :
        (∃ other, Json.Document line.toList other ∧ property other) ↔ property value := by
      constructor
      · rintro ⟨other, also, holds⟩
        rw [← Json.read?_iff, text] at also
        rwa [Option.some.inj also]
      · exact fun holds => ⟨value, document, holds⟩
    have same : read line = ofJson line value := by rw [read, text]
    have taken := ofJson_taken line value keyed
    rw [same]
    refine ⟨?_, ?_, ?_, ?_, ?_⟩
    · refine iff_of_false (fun failed => ?_) (not_not.mpr ⟨value, document⟩)
      rw [failed] at taken
      cases taken with
      | misfit kind cause type about => exact about
    · rw [only]
      exact ofJson_untyped line value keyed
    · intro kind
      rw [only]
      exact ofJson_unknown line value keyed kind
    · intro response
      rw [only]
      exact ofJson_ok line value keyed response
    · generalize ofJson line value = result at taken
      cases taken with
      | untyped => exact Or.inr (Or.inr ⟨_, rfl⟩)
      | unknown kind => exact Or.inr (Or.inl ⟨kind, rfl⟩)
      | response response => exact Or.inl ⟨response, rfl⟩
      | misfit kind cause => exact Or.inr (Or.inr ⟨cause, rfl⟩)

/-- Under the name of a severity an object without fields is as good as null. -/
theorem empty_object_severity_read :
    let kind : Json := .object [("error", .object [])]
    let line := "\x7b\"type\":\"compile\",\"id\":1,\"log\":[[\x7b\"kind\":\x7b\"error\":\x7b\x7d\x7d," ++
      "\"text\":\"bad\",\"range\":[\"a.sk\",[0,0],[0,1]]\x7d]]\x7d"
    Json.read? line = some (.object [
        ("type", .text "compile"), ("id", .natural 1),
        ("log", .array [.array [.object [
          ("kind", kind), ("text", .text "bad"),
          ("range", .array [.text "a.sk", .array [.natural 0, .natural 0],
            .array [.natural 0, .natural 1]])]]])]) ∧
      read line = .ok (.compile ⟨1, ⟨[⟨.error, "bad", ⟨"a.sk", ⟨0, 0⟩, ⟨0, 1⟩⟩⟩]⟩⟩) ∧
      ∀ severity : Severity, kind ≠ .text severity.label ∧ kind ≠ .object [(severity.label, .null)] := by
  refine ⟨rfl, rfl, fun severity => ?_⟩
  cases severity <;> simp [Severity.label]

end Response
end BuildWatch
