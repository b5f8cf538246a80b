import BuildWatch.Message.Request
import BuildWatch.Proofs.Json.Line
import Mathlib.Data.List.Basic

/-!
# What a written request asks for

A worker knows a request by its line alone. It finds the kind and the number there,
and has to repeat both in its answer. What it finds is the kind and the number of
the request that was written, whatever the files hold at that moment, and the line
end behind the request is the only one it reads.
-/

namespace BuildWatch

/-- A natural number is known from the value it is sent as. -/
theorem Json.natural_injective : Function.Injective Json.natural := by
  intro first second same
  injection same with number
  injection number with value
  exact Int.ofNat_inj.mp value

namespace Request

/-- A line asks for an answer of a kind and with a number when it is an object with
this type and this id. -/
def Asks (line : String) (kind : RequestKind) (id : RequestId) : Prop :=
  ∃ fields, Json.read? line = some (.object fields) ∧
    fields.lookup "type" = some (.text kind.label) ∧
    fields.lookup "id" = some (.natural id.toNat)

/-- A line asks for one kind and one number only. -/
theorem asks_unique (line : String) (kind other : RequestKind) (id number : RequestId)
    (asks : Asks line kind id) (also : Asks line other number) : kind = other ∧ id = number := by
  obtain ⟨fields, read, type, identity⟩ := asks
  obtain ⟨same, reread, otherType, otherIdentity⟩ := also
  obtain rfl : fields = same := by simpa [read] using reread
  have labels : kind.label = other.label := by simpa [type] using otherType
  have numbers : id.toNat = number.toNat := by
    simpa [identity, Json.natural, Int.ofNat_inj] using otherIdentity
  refine ⟨?_, UInt64.toNat_inj.mp numbers⟩
  cases kind <;> cases other <;> simp [RequestKind.label] at labels ⊢

/-- What a request says at a moment. -/
inductive Said where
  | compile (id : RequestId) (target : String) (inputs : List (String × String))
      (stopAfterResolve : Bool)
  | tooltip (id : RequestId) (source : String) (line column : UInt32)
  deriving DecidableEq

/-- A file under its path, if it can be read as text. -/
def readable? (disk : Files.Disk) (path : Path) : Option (String × String) :=
  (disk.readText path).toOption.map fun contents => (path.text, contents)

/-- What a request says with the files of a moment. -/
def said (disk : Files.Disk) : Request → Said
  | .compile request =>
    .compile request.id request.flags.target (request.inputs.filterMap (readable? disk))
      request.flags.stopAfterResolve
  | .tooltip request => .tooltip request.id request.source request.line request.column

/-- The fields that say it. -/
def Said.fields : Said → List (String × Json)
  | .compile id target inputs stopAfterResolve =>
    [("type", .text "compile"), ("id", .natural id.toNat), ("target", .text target),
      ("inputs", .array (inputs.map fun input =>
        .object [("name", .text input.1), ("contents", .text input.2)])),
      ("stopAfterResolve", .bool stopAfterResolve)]
  | .tooltip id source line column =>
    [("type", .text "tooltip-query"), ("id", .natural id.toNat), ("source", .text source),
      ("line", .natural line.toNat), ("column", .natural column.toNat)]

theorem Said.fields_injective : Function.Injective Said.fields := by
  have files : Function.Injective fun input : String × String =>
      Json.object [("name", .text input.1), ("contents", .text input.2)] := by
    intro first second same
    simpa [Prod.ext_iff] using same
  have lists := List.map_injective_iff.mpr files
  intro first second same
  cases first with
  | compile id target inputs stopAfterResolve =>
    cases second with
    | compile => simpa [fields, Json.natural_injective.eq_iff, lists.eq_iff, UInt64.toNat_inj] using same
    | tooltip => simp [fields] at same
  | tooltip id source line column =>
    cases second with
    | compile => simp [fields] at same
    | tooltip =>
      simpa [fields, Json.natural_injective.eq_iff, UInt64.toNat_inj, UInt32.toNat_inj] using same

/-- The inputs that are written are those that can be read, in the order given. -/
theorem readInputs_value (disk : Files.Disk) (paths : List Path) :
    (readInputs disk paths).value = paths.filterMap (readable? disk) := by
  induction paths with
  | nil => rfl
  | cons path rest inductionHypothesis =>
    cases reads : disk.readText path with
    | ok contents =>
      have first : readable? disk path = some (path.text, contents) := by
        simp [readable?, reads, Except.toOption]
      rw [List.filterMap_cons_some first, ← inductionHypothesis]
      simp only [readInputs, reads]
      rfl
    | error fault =>
      have none : readable? disk path = none := by simp [readable?, reads, Except.toOption]
      rw [List.filterMap_cons_none none, ← inductionHypothesis]
      simp only [readInputs, reads]
      rfl

/-- A request is written as the object of what it says. -/
theorem toJson_value (disk : Files.Disk) (request : Request) :
    (request.toJson disk).value = .object (request.said disk).fields := by
  cases request with
  | tooltip request => rfl
  | compile request =>
    rw [said, ← readInputs_value]
    rfl

/-- What a request says is three levels deep. -/
theorem Said.fields_fit (said : Said) : Json.Fits Json.depthLimit (.object said.fields) := by
  cases said with
  | compile id target inputs stopAfterResolve =>
    have files : Json.Fits 126 (.array (inputs.map fun input =>
        .object [("name", .text input.1), ("contents", .text input.2)])) := by
      refine Json.Fits.array 125 _ ?_
      intro item member
      obtain ⟨file, -, rfl⟩ := List.mem_map.mp member
      refine Json.Fits.object 124 _ (by simp) ?_
      simp [Json.Fits.text]
    refine Json.Fits.object 126 _ (by simp [Said.fields]) ?_
    simp [Said.fields, Json.Fits.text, Json.Fits.bool, Json.Fits.word64, files]
  | tooltip id source line column =>
    refine Json.Fits.object 126 _ (by simp [Said.fields]) ?_
    simp [Said.fields, Json.Fits.text, Json.Fits.word64, Json.Fits.word32]

/-- The line of a request is the text of the object of what it says. -/
theorem written_value (disk : Files.Disk) (request : Request) :
    (request.written disk).value = (Json.object (request.said disk).fields).written :=
  congrArg Json.written (toJson_value disk request)

/-- What a request says is read back from its line. -/
theorem read?_written (disk : Files.Disk) (request : Request) :
    Json.read? (request.written disk).value = some (.object (request.said disk).fields) := by
  rw [written_value, Json.read?_written _ (Said.fields_fit _)]

/-- A written request has no control characters in it. -/
theorem written_uncontrolled (disk : Files.Disk) (request : Request) :
    Json.Uncontrolled (request.written disk).value.toList := by
  rw [written_value]
  exact Json.written_uncontrolled _ _ (Said.fields_fit _)

/-- A written request asks for its own kind and number. -/
theorem written_asks (disk : Files.Disk) (request : Request) :
    Asks (request.written disk).value request.kind request.id := by
  refine ⟨_, read?_written disk request, ?_, ?_⟩ <;> cases request <;> rfl

/-- A written request is a single line. -/
theorem written_inLine (disk : Files.Disk) (request : Request) :
    '\n' ∉ (request.written disk).value.toList :=
  (written_uncontrolled disk request).inLine

/-- A written request is one line that says exactly what the request says. Whatever the
names, the texts and the files hold, no control character is in the line. Read as JSON
it is the object of the request's own values; the inputs are those of the files asked
for that can be read as text at that moment, each with its path and its contents, in the
order asked for. And two requests written at one moment make the same line exactly when
they say the same. -/
theorem written_line_says_request (disk : Files.Disk) (request : Request) :
    (∀ c ∈ (request.written disk).value.toList, 0x20 ≤ c.toNat) ∧
      Json.read? (request.written disk).value = some (.object (request.said disk).fields) ∧
      ∀ other : Request, (request.written disk).value = (other.written disk).value ↔
        request.said disk = other.said disk := by
  refine ⟨written_uncontrolled disk request, read?_written disk request, ?_⟩
  intro other
  constructor
  · intro sameLine
    have sameFields : some (Json.object (request.said disk).fields) =
        some (.object (other.said disk).fields) := by
      rw [← read?_written, ← read?_written, sameLine]
    exact Said.fields_injective (Json.object.inj (Option.some.inj sameFields))
  · intro same
    rw [written_value, written_value, same]

end Request
end BuildWatch
