import BuildWatch.Message.Reader
import BuildWatch.Proofs.Json.Line

/-!
# Written responses are read back

Every record of a response is written as the object of all its fields in the order
declared, so reading it back looks at each field once and misses none. The lemmas
follow the records from the inside out.
-/

namespace BuildWatch

namespace Schema

/-- A word of 64 bits fits where one is expected. -/
theorem word64_natural (value : UInt64) : word64 (.natural value.toNat) = .ok value := by
  have bounded : value.toNat < UInt64.size := value.toNat_lt_size
  simp [word64, word, Json.natural, bounded, Except.map]

/-- A word of 32 bits fits where one is expected. -/
theorem word32_natural (value : UInt32) : word32 (.natural value.toNat) = .ok value := by
  have bounded : value.toNat < UInt32.size := value.toNat_lt_size
  simp [word32, word, Json.natural, bounded, Except.map]

/-- What is absent is written as null, and read back as absent. -/
theorem optional_written {α : Type} (read : Json → Except SchemaFault α) (toJson : α → Json)
    (inverse : ∀ value, read (toJson value) = .ok value) (present : ∀ value, toJson value ≠ .null)
    (value : Option α) : optional read ((value.map toJson).getD .null) = .ok value := by
  cases value with
  | none => rfl
  | some value =>
    rw [Option.map_some, Option.getD_some, optional.eq_2 _ _ (present value), inverse value]
    rfl

/-- A list whose items are read back is read back. -/
theorem list_written {α : Type} (read : Json → Except SchemaFault α) (toJson : α → Json)
    (inverse : ∀ value, read (toJson value) = .ok value) (values : List α) :
    list read (.array (values.map toJson)) = .ok values := by
  rw [list]
  induction values with
  | nil => rfl
  | cons value rest inductionHypothesis =>
    rw [List.map_cons, List.mapM_cons, inverse, inductionHypothesis]
    rfl

end Schema

namespace Position

theorem read_toJson (position : Position) : read position.toJson = .ok position := by
  simp [read, toJson, Schema.visitRecord, Schema.visit, Draft.take, Schema.word32_natural,
    Schema.required, Except.map,
    pure, Except.pure, bind, Except.bind]

theorem toJson_fits (depth : Nat) (position : Position) : Json.Fits (depth + 1) position.toJson := by
  refine Json.Fits.object depth _ (by simp) ?_
  simp [Json.Fits.word32]

end Position

namespace Range

theorem read_toJson (range : Range) : read range.toJson = .ok range := by
  simp [read, toJson, Schema.visitRecord, Schema.visit, Draft.take, Schema.text,
    Position.read_toJson, Schema.required, Except.map,
    pure, Except.pure, bind, Except.bind]

theorem toJson_fits (depth : Nat) (range : Range) : Json.Fits (depth + 2) range.toJson := by
  refine Json.Fits.object (depth + 1) _ (by simp) ?_
  simp [Json.Fits.text, Position.toJson_fits]

end Range

namespace Diagnostic

theorem read_toJson (diagnostic : Diagnostic) : read diagnostic.toJson = .ok diagnostic := by
  have severity : Severity.read (.text diagnostic.severity.label) = .ok diagnostic.severity := by
    cases diagnostic.severity <;> rfl
  simp [read, toJson, Schema.visitRecord, Schema.visit, Draft.take, Schema.text, severity,
    Range.read_toJson, Schema.required, Except.map,
    pure, Except.pure, bind, Except.bind]

theorem toJson_fits (depth : Nat) (diagnostic : Diagnostic) :
    Json.Fits (depth + 3) diagnostic.toJson := by
  refine Json.Fits.object (depth + 2) _ (by simp) ?_
  simp [Json.Fits.text, Range.toJson_fits]

end Diagnostic

namespace CompileLog

theorem read_toJson (log : CompileLog) : read log.toJson = .ok log := by
  have items := Schema.list_written Diagnostic.read Diagnostic.toJson Diagnostic.read_toJson
    log.diagnostics
  simp [read, toJson, Schema.visitRecord, Schema.visit, takeField, items, Except.map]

theorem toJson_fits (depth : Nat) (log : CompileLog) : Json.Fits (depth + 5) log.toJson := by
  have items : Json.Fits (depth + 4) (.array (log.diagnostics.map Diagnostic.toJson)) := by
    refine Json.Fits.array (depth + 3) _ ?_
    simp [Diagnostic.toJson_fits]
  refine Json.Fits.object (depth + 4) _ (by simp) ?_
  simp [items]

end CompileLog

namespace Response

/-- A response is read back from the value it is written as. -/
theorem ofJson_toJson (line : String) (response : Response) :
    ofJson line response.toJson = .ok response := by
  cases response with
  | compile result =>
    simp [ofJson, toJson, CompileResult.read, Schema.visit, CompileResult.Draft.take,
      Schema.word64_natural, CompileLog.read_toJson, Schema.required, Except.map, Except.mapError,
      pure, Except.pure, bind, Except.bind]
  | tooltip result =>
    have range := Schema.optional_written Range.read Range.toJson Range.read_toJson
      (fun _ => Json.noConfusion) result.range
    have tooltip := Schema.optional_written Schema.text Json.text (fun _ => rfl)
      (fun _ => Json.noConfusion) result.tooltip
    have other : RequestKind.tooltip.label ≠ RequestKind.compile.label := by decide
    simp [ofJson, toJson, other, TooltipResult.read, Schema.visit, TooltipResult.Draft.take,
      Schema.word64_natural, range, tooltip, Schema.required, Except.map, Except.mapError,
      pure, Except.pure, bind, Except.bind]

theorem toJson_fits (depth : Nat) (response : Response) : Json.Fits (depth + 6) response.toJson := by
  cases response with
  | compile result =>
    refine Json.Fits.object (depth + 5) _ (by simp) ?_
    simp [Json.Fits.text, Json.Fits.word64, CompileLog.toJson_fits]
  | tooltip result =>
    have range : Json.Fits (depth + 5) ((result.range.map Range.toJson).getD .null) := by
      cases result.range with
      | none => exact Json.Fits.null _
      | some range => exact Range.toJson_fits (depth + 3) range
    have tooltip : Json.Fits (depth + 5) ((result.tooltip.map Json.text).getD .null) := by
      cases result.tooltip with
      | none => exact Json.Fits.null _
      | some tooltip => exact Json.Fits.text _ tooltip
    refine Json.Fits.object (depth + 5) _ (by simp) ?_
    simp [Json.Fits.text, Json.Fits.word64, range, tooltip]

/-- A line carries a response when it is a text of the value that the response is
written as. How it is spaced does not matter. -/
def Carries (line : String) (response : Response) : Prop :=
  Json.read? line = some response.toJson

/-- A written response is carried by its line. -/
theorem carries_written (response : Response) : Carries response.written response :=
  Json.read?_written _ (toJson_fits 121 response)

/-- A response is read from any line that carries it. -/
theorem read_carried (line : String) (response : Response) (carries : Carries line response) :
    read line = .ok response := by
  rw [read, carries]
  exact ofJson_toJson line response

/-- A line that carries a response is not skipped as a blank one. -/
theorem carried_notBlank (line : String) (response : Response) (carries : Carries line response) :
    Text.isAllBlank line = false := by
  rw [Bool.eq_false_iff]
  intro blank
  rw [Carries, Json.read?_blank line blank] at carries
  exact absurd carries (Option.some_ne_none _).symm

/-- A written response is one line from which the response is read back, whatever texts,
words and places it holds. The line is that of an object whose type is the kind of the
response; a range or a tooltip that is absent stands there as null. No control character
is in the line. -/
theorem written_read_back (response : Response) :
    read response.written = .ok response ∧
      Json.read? response.written =
        some (.object (match response with
          | .compile result =>
            [("type", .text "compile"), ("id", .natural result.id.toNat),
              ("log", result.log.toJson)]
          | .tooltip result =>
            [("type", .text "tooltip-query"), ("id", .natural result.id.toNat),
              ("range", result.range.elim .null Range.toJson),
              ("tooltip", result.tooltip.elim .null .text)])) ∧
      ∀ c ∈ response.written.toList, 0x20 ≤ c.toNat := by
  refine ⟨read_carried _ response (carries_written response), ?_,
    Json.written_uncontrolled _ _ (toJson_fits 121 response)⟩
  rw [carries_written response]
  cases response with
  | compile result => rfl
  | tooltip result =>
    obtain ⟨id, range, tooltip⟩ := result
    cases range <;> cases tooltip <;> rfl

end Response
end BuildWatch
