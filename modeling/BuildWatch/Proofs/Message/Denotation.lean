import BuildWatch.Proofs.Message.Schema

/-!
# What responses are denoted

Each record of a response is said here as a relation between values and records: which
fields there have to be, what each of them denotes, and in which forms the record may be
written. A record is read from a value exactly when the value denotes it, from the inside
out. The draft of a record is followed through its own declared fields only; that the
others change nothing is what makes the order of the fields, and all fields that are not
declared, indifferent.
-/

namespace BuildWatch

open Schema (Strict)

namespace Position

/-- The fields of a position. -/
def shape : Schema.Shape := { name := "Position", fields := ["line", "column"] }

/-- A position is denoted by its line and its column. -/
def Denotes (value : Json) (position : Position) : Prop :=
  ∃ fields, Schema.Entries shape value fields ∧
    Schema.Holds fields "line" Schema.Word32 position.line ∧
    Schema.Holds fields "column" Schema.Word32 position.column

/-- What a field does to the draft. -/
theorem Draft.take_ok (state next : Draft) (field : String) (value : Json) :
    state.take field value = .ok next ↔
      (field = "line" ∧ ∃ line, Schema.word32 value = .ok line ∧
        { state with line := some line } = next) ∨
      (field = "column" ∧ ∃ column, Schema.word32 value = .ok column ∧
        { state with column := some column } = next) ∨
      (field ≠ "line" ∧ field ≠ "column" ∧ state = next) := by
  unfold Draft.take
  split <;> simp_all [Schema.map_ok]

/-- A field that can be read can be taken. -/
theorem Draft.accepts (state : Draft) (field : String) (value : Json)
    (line : field = "line" → ∃ line, Schema.word32 value = .ok line)
    (column : field = "column" → ∃ column, Schema.word32 value = .ok column) :
    ∃ next, state.take field value = .ok next := by
  unfold Draft.take
  split
  · exact Schema.map_accepts _ (line rfl)
  · exact Schema.map_accepts _ (column rfl)
  · exact ⟨state, rfl⟩

theorem Draft.line_column : Schema.Column Draft.take "line" Schema.word32 Draft.line some where
  taken _ _ _ := by rw [take_ok]; grind
  kept _ _ _ _ := by rw [take_ok]; grind

theorem Draft.column_column : Schema.Column Draft.take "column" Schema.word32 Draft.column some where
  taken _ _ _ := by rw [take_ok]; grind
  kept _ _ _ _ := by rw [take_ok]; grind

theorem read_ok (value : Json) (position : Position) :
    read value = .ok position ↔ ∃ fields, Schema.Entries shape value fields ∧
      ∃ draft, Schema.visit Draft.take {} fields = .ok draft ∧
        draft.line = some position.line ∧ draft.column = some position.column := by
  simp only [read, Schema.bind_ok, Schema.visitRecord_ok, Schema.required_ok]
  constructor
  · rintro ⟨draft, ⟨fields, entries, visited⟩, line, heldLine, column, heldColumn, same⟩
    obtain rfl := Except.ok.inj same
    exact ⟨fields, entries, draft, visited, heldLine, heldColumn⟩
  · rintro ⟨fields, entries, draft, visited, heldLine, heldColumn⟩
    exact ⟨draft, ⟨fields, entries, visited⟩, _, heldLine, _, heldColumn, rfl⟩

/-- A position is read from the values that denote it. -/
theorem read_denotes : Schema.Reads read Denotes := by
  intro value keyed position
  rw [read_ok]
  refine exists_congr fun fields => and_congr_right fun entries => ?_
  have keyed := entries.keyed (by decide) keyed
  have line := Draft.line_column.holds keyed Schema.word32_reads {} rfl
  have column := Draft.column_column.holds keyed Schema.word32_reads {} rfl
  constructor
  · rintro ⟨draft, visited, heldLine, heldColumn⟩
    exact ⟨(line draft visited _).mp heldLine, (column draft visited _).mp heldColumn⟩
  · rintro ⟨holdsLine, holdsColumn⟩
    obtain ⟨draft, visited⟩ := Schema.visit_accepts Draft.take fields {} fun entry member state =>
      state.accepts entry.1 entry.2 (holdsLine.readable keyed Schema.word32_reads member)
        (holdsColumn.readable keyed Schema.word32_reads member)
    exact ⟨draft, visited, (line draft visited _).mpr holdsLine,
      (column draft visited _).mpr holdsColumn⟩

theorem Draft.take_strict (state : Draft) (field : String) (value : Json) :
    Strict (state.take field value) := by
  unfold take
  split
  · exact (Schema.word32_strict value).map _
  · exact (Schema.word32_strict value).map _
  · exact Strict.ok state

theorem read_strict (value : Json) : Strict (read value) :=
  (Schema.visitRecord_strict Draft.take_strict _ _ value).bind fun _ =>
    (Schema.required_strict _ _).bind fun _ => (Schema.required_strict _ _).bind fun _ => Strict.ok _

end Position

namespace Range

/-- The fields of a range. -/
def shape : Schema.Shape := { name := "Range", fields := ["source", "start", "end"] }

/-- A range is denoted by its source and by the positions where it starts and ends. -/
def Denotes (value : Json) (range : Range) : Prop :=
  ∃ fields, Schema.Entries shape value fields ∧
    Schema.Holds fields "source" Schema.Text range.source ∧
    Schema.Holds fields "start" Position.Denotes range.start ∧
    Schema.Holds fields "end" Position.Denotes range.stop

/-- What a field does to the draft. -/
theorem Draft.take_ok (state next : Draft) (field : String) (value : Json) :
    state.take field value = .ok next ↔
      (field = "source" ∧ ∃ source, Schema.text value = .ok source ∧
        { state with source := some source } = next) ∨
      (field = "start" ∧ ∃ start, Position.read value = .ok start ∧
        { state with start := some start } = next) ∨
      (field = "end" ∧ ∃ stop, Position.read value = .ok stop ∧
        { state with stop := some stop } = next) ∨
      (field ≠ "source" ∧ field ≠ "start" ∧ field ≠ "end" ∧ state = next) := by
  unfold Draft.take
  split <;> simp_all [Schema.map_ok]

/-- A field that can be read can be taken. -/
theorem Draft.accepts (state : Draft) (field : String) (value : Json)
    (source : field = "source" → ∃ source, Schema.text value = .ok source)
    (start : field = "start" → ∃ start, Position.read value = .ok start)
    (stop : field = "end" → ∃ stop, Position.read value = .ok stop) :
    ∃ next, state.take field value = .ok next := by
  unfold Draft.take
  split
  · exact Schema.map_accepts _ (source rfl)
  · exact Schema.map_accepts _ (start rfl)
  · exact Schema.map_accepts _ (stop rfl)
  · exact ⟨state, rfl⟩

theorem Draft.source_column : Schema.Column Draft.take "source" Schema.text Draft.source some where
  taken _ _ _ := by rw [take_ok]; grind
  kept _ _ _ _ := by rw [take_ok]; grind

theorem Draft.start_column : Schema.Column Draft.take "start" Position.read Draft.start some where
  taken _ _ _ := by rw [take_ok]; grind
  kept _ _ _ _ := by rw [take_ok]; grind

theorem Draft.stop_column : Schema.Column Draft.take "end" Position.read Draft.stop some where
  taken _ _ _ := by rw [take_ok]; grind
  kept _ _ _ _ := by rw [take_ok]; grind

theorem read_ok (value : Json) (range : Range) :
    read value = .ok range ↔ ∃ fields, Schema.Entries shape value fields ∧
      ∃ draft, Schema.visit Draft.take {} fields = .ok draft ∧ draft.source = some range.source ∧
        draft.start = some range.start ∧ draft.stop = some range.stop := by
  simp only [read, Schema.bind_ok, Schema.visitRecord_ok, Schema.required_ok]
  constructor
  · rintro ⟨draft, ⟨fields, entries, visited⟩, source, heldSource, start, heldStart, stop, heldStop,
      same⟩
    obtain rfl := Except.ok.inj same
    exact ⟨fields, entries, draft, visited, heldSource, heldStart, heldStop⟩
  · rintro ⟨fields, entries, draft, visited, heldSource, heldStart, heldStop⟩
    exact ⟨draft, ⟨fields, entries, visited⟩, _, heldSource, _, heldStart, _, heldStop, rfl⟩

/-- A range is read from the values that denote it. -/
theorem read_denotes : Schema.Reads read Denotes := by
  intro value keyed range
  rw [read_ok]
  refine exists_congr fun fields => and_congr_right fun entries => ?_
  have keyed := entries.keyed (by decide) keyed
  have source := Draft.source_column.holds keyed Schema.text_reads {} rfl
  have start := Draft.start_column.holds keyed Position.read_denotes {} rfl
  have stop := Draft.stop_column.holds keyed Position.read_denotes {} rfl
  constructor
  · rintro ⟨draft, visited, heldSource, heldStart, heldStop⟩
    exact ⟨(source draft visited _).mp heldSource, (start draft visited _).mp heldStart,
      (stop draft visited _).mp heldStop⟩
  · rintro ⟨holdsSource, holdsStart, holdsStop⟩
    obtain ⟨draft, visited⟩ := Schema.visit_accepts Draft.take fields {} fun entry member state =>
      state.accepts entry.1 entry.2 (holdsSource.readable keyed Schema.text_reads member)
        (holdsStart.readable keyed Position.read_denotes member)
        (holdsStop.readable keyed Position.read_denotes member)
    exact ⟨draft, visited, (source draft visited _).mpr holdsSource,
      (start draft visited _).mpr holdsStart, (stop draft visited _).mpr holdsStop⟩

theorem Draft.take_strict (state : Draft) (field : String) (value : Json) :
    Strict (state.take field value) := by
  unfold take
  split
  · exact (Schema.text_strict value).map _
  · exact (Position.read_strict value).map _
  · exact (Position.read_strict value).map _
  · exact Strict.ok state

theorem read_strict (value : Json) : Strict (read value) :=
  (Schema.visitRecord_strict Draft.take_strict _ _ value).bind fun _ =>
    (Schema.required_strict _ _).bind fun _ => (Schema.required_strict _ _).bind fun _ =>
      (Schema.required_strict _ _).bind fun _ => Strict.ok _

end Range

namespace Severity

/-- A severity is denoted by its name, or by an object with its name as the only key and
nothing under it: null, or an object without fields. -/
def Denotes (value : Json) (severity : Severity) : Prop :=
  value = .text severity.label ∨ value = .object [(severity.label, .null)] ∨
    value = .object [(severity.label, .object [])]

theorem ofName_ok (name : String) (severity : Severity) :
    ofName name = .ok severity ↔ name = severity.label := by
  unfold ofName
  split
  · cases severity <;> simp [label]
  · cases severity <;> simp [label]
  · cases severity <;> simp_all [label]

/-- A severity is read from the values that denote it. -/
theorem read_denotes : Schema.Reads read Denotes := by
  intro value _ severity
  constructor
  · intro taken
    unfold read at taken
    split at taken
    · exact Or.inl (congrArg Json.text ((ofName_ok _ _).mp taken))
    · rename_i name inner _
      cases named : ofName name with
      | error fault => simp [named] at taken
      | ok own =>
        obtain rfl := (ofName_ok name own).mp named
        simp only [named] at taken
        split at taken
        · obtain rfl := Except.ok.inj taken
          exact Or.inr (Or.inl rfl)
        · obtain rfl := Except.ok.inj taken
          exact Or.inr (Or.inr rfl)
        · exact absurd taken (by simp)
    · exact absurd taken (by simp)
    · exact absurd taken (by simp)
  · rintro (rfl | rfl | rfl) <;> cases severity <;> rfl

theorem ofName_strict (name : String) : Strict (ofName name) := by
  unfold ofName
  split
  · exact Strict.ok _
  · exact Strict.ok _
  · exact Strict.error trivial

theorem read_strict (value : Json) : Strict (read value) := by
  unfold read
  split
  · exact ofName_strict _
  · split
    · rename_i fault failed
      exact Strict.error (ofName_strict _ fault failed)
    · split
      · exact Strict.ok _
      · exact Strict.ok _
      · exact Strict.error trivial
  · exact Strict.error trivial
  · exact Strict.error trivial

end Severity

namespace Diagnostic

/-- The fields of a diagnostic. -/
def shape : Schema.Shape := { name := "Diagnostic", fields := ["kind", "text", "range"] }

/-- A diagnostic is denoted by its severity, its text and its range. -/
def Denotes (value : Json) (diagnostic : Diagnostic) : Prop :=
  ∃ fields, Schema.Entries shape value fields ∧
    Schema.Holds fields "kind" Severity.Denotes diagnostic.severity ∧
    Schema.Holds fields "text" Schema.Text diagnostic.text ∧
    Schema.Holds fields "range" Range.Denotes diagnostic.range

/-- What a field does to the draft. -/
theorem Draft.take_ok (state next : Draft) (field : String) (value : Json) :
    state.take field value = .ok next ↔
      (field = "kind" ∧ ∃ severity, Severity.read value = .ok severity ∧
        { state with severity := some severity } = next) ∨
      (field = "text" ∧ ∃ text, Schema.text value = .ok text ∧
        { state with text := some text } = next) ∨
      (field = "range" ∧ ∃ range, Range.read value = .ok range ∧
        { state with range := some range } = next) ∨
      (field ≠ "kind" ∧ field ≠ "text" ∧ field ≠ "range" ∧ state = next) := by
  unfold Draft.take
  split <;> simp_all [Schema.map_ok]

/-- A field that can be read can be taken. -/
theorem Draft.accepts (state : Draft) (field : String) (value : Json)
    (severity : field = "kind" → ∃ severity, Severity.read value = .ok severity)
    (text : field = "text" → ∃ text, Schema.text value = .ok text)
    (range : field = "range" → ∃ range, Range.read value = .ok range) :
    ∃ next, state.take field value = .ok next := by
  unfold Draft.take
  split
  · exact Schema.map_accepts _ (severity rfl)
  · exact Schema.map_accepts _ (text rfl)
  · exact Schema.map_accepts _ (range rfl)
  · exact ⟨state, rfl⟩

theorem Draft.severity_column :
    Schema.Column Draft.take "kind" Severity.read Draft.severity some where
  taken _ _ _ := by rw [take_ok]; grind
  kept _ _ _ _ := by rw [take_ok]; grind

theorem Draft.text_column : Schema.Column Draft.take "text" Schema.text Draft.text some where
  taken _ _ _ := by rw [take_ok]; grind
  kept _ _ _ _ := by rw [take_ok]; grind

theorem Draft.range_column : Schema.Column Draft.take "range" Range.read Draft.range some where
  taken _ _ _ := by rw [take_ok]; grind
  kept _ _ _ _ := by rw [take_ok]; grind

theorem read_ok (value : Json) (diagnostic : Diagnostic) :
    read value = .ok diagnostic ↔ ∃ fields, Schema.Entries shape value fields ∧
      ∃ draft, Schema.visit Draft.take {} fields = .ok draft ∧
        draft.severity = some diagnostic.severity ∧ draft.text = some diagnostic.text ∧
        draft.range = some diagnostic.range := by
  simp only [read, Schema.bind_ok, Schema.visitRecord_ok, Schema.required_ok]
  constructor
  · rintro ⟨draft, ⟨fields, entries, visited⟩, severity, heldSeverity, text, heldText, range,
      heldRange, same⟩
    obtain rfl := Except.ok.inj same
    exact ⟨fields, entries, draft, visited, heldSeverity, heldText, heldRange⟩
  · rintro ⟨fields, entries, draft, visited, heldSeverity, heldText, heldRange⟩
    exact ⟨draft, ⟨fields, entries, visited⟩, _, heldSeverity, _, heldText, _, heldRange, rfl⟩

/-- A diagnostic is read from the values that denote it. -/
theorem read_denotes : Schema.Reads read Denotes := by
  intro value keyed diagnostic
  rw [read_ok]
  refine exists_congr fun fields => and_congr_right fun entries => ?_
  have keyed := entries.keyed (by decide) keyed
  have severity := Draft.severity_column.holds keyed Severity.read_denotes {} rfl
  have text := Draft.text_column.holds keyed Schema.text_reads {} rfl
  have range := Draft.range_column.holds keyed Range.read_denotes {} rfl
  constructor
  · rintro ⟨draft, visited, heldSeverity, heldText, heldRange⟩
    exact ⟨(severity draft visited _).mp heldSeverity, (text draft visited _).mp heldText,
      (range draft visited _).mp heldRange⟩
  · rintro ⟨holdsSeverity, holdsText, holdsRange⟩
    obtain ⟨draft, visited⟩ := Schema.visit_accepts Draft.take fields {} fun entry member state =>
      state.accepts entry.1 entry.2 (holdsSeverity.readable keyed Severity.read_denotes member)
        (holdsText.readable keyed Schema.text_reads member)
        (holdsRange.readable keyed Range.read_denotes member)
    exact ⟨draft, visited, (severity draft visited _).mpr holdsSeverity,
      (text draft visited _).mpr holdsText, (range draft visited _).mpr holdsRange⟩

theorem Draft.take_strict (state : Draft) (field : String) (value : Json) :
    Strict (state.take field value) := by
  unfold take
  split
  · exact (Severity.read_strict value).map _
  · exact (Schema.text_strict value).map _
  · exact (Range.read_strict value).map _
  · exact Strict.ok state

theorem read_strict (value : Json) : Strict (read value) :=
  (Schema.visitRecord_strict Draft.take_strict _ _ value).bind fun _ =>
    (Schema.required_strict _ _).bind fun _ => (Schema.required_strict _ _).bind fun _ =>
      (Schema.required_strict _ _).bind fun _ => Strict.ok _

end Diagnostic

namespace CompileLog

/-- The fields of a log. -/
def shape : Schema.Shape := { name := "CompileLog", fields := ["diagnostics"], openEnded := true }

/-- A log is denoted by its diagnostics, and without them it is empty. -/
def Denotes (value : Json) (log : CompileLog) : Prop :=
  ∃ fields, Schema.Entries shape value fields ∧
    Schema.HoldsOr [] fields "diagnostics" (Schema.Items Diagnostic.Denotes) log.diagnostics

/-- What a field does to the log. -/
theorem takeField_ok (log next : CompileLog) (field : String) (value : Json) :
    log.takeField field value = .ok next ↔
      (field = "diagnostics" ∧ ∃ diagnostics, Schema.list Diagnostic.read value = .ok diagnostics ∧
        { log with diagnostics := diagnostics } = next) ∨
      (field ≠ "diagnostics" ∧ log = next) := by
  unfold takeField
  split <;> simp_all [Schema.map_ok]

theorem diagnostics_column :
    Schema.Column takeField "diagnostics" (Schema.list Diagnostic.read) diagnostics id where
  taken _ _ _ := by rw [takeField_ok]; grind
  kept _ _ _ _ := by rw [takeField_ok]; grind

/-- A log is read from the values that denote it. -/
theorem read_denotes : Schema.Reads read Denotes := by
  intro value keyed log
  rw [read, Schema.visitRecord_ok]
  refine exists_congr fun fields => and_congr_right fun entries => ?_
  have keyed := entries.keyed (by decide) keyed
  have reads := Schema.list_reads Diagnostic.read_denotes
  have diagnostics := diagnostics_column.holdsOr keyed reads {}
  constructor
  · exact fun visited => (diagnostics log visited _).mp rfl
  · intro holds
    obtain ⟨final, visited⟩ := Schema.visit_accepts takeField fields {} fun entry member state => by
      unfold takeField
      split
      · exact Schema.map_accepts _ (holds.readable keyed reads member ‹_›)
      · exact ⟨state, rfl⟩
    obtain rfl : final = log := congrArg CompileLog.mk ((diagnostics final visited _).mpr holds)
    exact visited

theorem takeField_strict (log : CompileLog) (field : String) (value : Json) :
    Strict (log.takeField field value) := by
  unfold takeField
  split
  · exact (Schema.list_strict Diagnostic.read_strict value).map _
  · exact Strict.ok log

theorem read_strict (value : Json) : Strict (read value) :=
  Schema.visitRecord_strict takeField_strict _ _ value

end CompileLog

namespace CompileResult

/-- A compile response is denoted by the number of its request and its log. -/
def Denotes (fields : List (String × Json)) (result : CompileResult) : Prop :=
  Schema.Holds fields "id" Schema.Word64 result.id ∧
    Schema.Holds fields "log" CompileLog.Denotes result.log

/-- What a field does to the draft. -/
theorem Draft.take_ok (state next : Draft) (field : String) (value : Json) :
    state.take field value = .ok next ↔
      (field = "id" ∧ ∃ id, Schema.word64 value = .ok id ∧ { state with id := some id } = next) ∨
      (field = "log" ∧ ∃ log, CompileLog.read value = .ok log ∧
        { state with log := some log } = next) ∨
      (field ≠ "id" ∧ field ≠ "log" ∧ state = next) := by
  unfold Draft.take
  split <;> simp_all [Schema.map_ok]

/-- A field that can be read can be taken. -/
theorem Draft.accepts (state : Draft) (field : String) (value : Json)
    (id : field = "id" → ∃ id, Schema.word64 value = .ok id)
    (log : field = "log" → ∃ log, CompileLog.read value = .ok log) :
    ∃ next, state.take field value = .ok next := by
  unfold Draft.take
  split
  · exact Schema.map_accepts _ (id rfl)
  · exact Schema.map_accepts _ (log rfl)
  · exact ⟨state, rfl⟩

theorem Draft.id_column : Schema.Column Draft.take "id" Schema.word64 Draft.id some where
  taken _ _ _ := by rw [take_ok]; grind
  kept _ _ _ _ := by rw [take_ok]; grind

theorem Draft.log_column : Schema.Column Draft.take "log" CompileLog.read Draft.log some where
  taken _ _ _ := by rw [take_ok]; grind
  kept _ _ _ _ := by rw [take_ok]; grind

theorem read_ok (fields : List (String × Json)) (result : CompileResult) :
    read fields = .ok result ↔ ∃ draft, Schema.visit Draft.take {} fields = .ok draft ∧
      draft.id = some result.id ∧ draft.log = some result.log := by
  simp only [read, Schema.bind_ok, Schema.required_ok]
  constructor
  · rintro ⟨draft, visited, id, heldId, log, heldLog, same⟩
    obtain rfl := Except.ok.inj same
    exact ⟨draft, visited, heldId, heldLog⟩
  · rintro ⟨draft, visited, heldId, heldLog⟩
    exact ⟨draft, visited, _, heldId, _, heldLog, rfl⟩

/-- A compile response is read from the fields that denote it. -/
theorem read_denotes (fields : List (String × Json)) (keyed : Json.Keyed (.object fields))
    (result : CompileResult) : read fields = .ok result ↔ Denotes fields result := by
  rw [read_ok]
  have id := Draft.id_column.holds keyed Schema.word64_reads {} rfl
  have log := Draft.log_column.holds keyed CompileLog.read_denotes {} rfl
  constructor
  · rintro ⟨draft, visited, heldId, heldLog⟩
    exact ⟨(id draft visited _).mp heldId, (log draft visited _).mp heldLog⟩
  · rintro ⟨holdsId, holdsLog⟩
    obtain ⟨draft, visited⟩ := Schema.visit_accepts Draft.take fields {} fun entry member state =>
      state.accepts entry.1 entry.2 (holdsId.readable keyed Schema.word64_reads member)
        (holdsLog.readable keyed CompileLog.read_denotes member)
    exact ⟨draft, visited, (id draft visited _).mpr holdsId, (log draft visited _).mpr holdsLog⟩

theorem Draft.take_strict (state : Draft) (field : String) (value : Json) :
    Strict (state.take field value) := by
  unfold take
  split
  · exact (Schema.word64_strict value).map _
  · exact (CompileLog.read_strict value).map _
  · exact Strict.ok state

theorem read_strict (fields : List (String × Json)) : Strict (read fields) :=
  (Schema.visit_strict Draft.take_strict _ fields).bind fun _ =>
    (Schema.required_strict _ _).bind fun _ => (Schema.required_strict _ _).bind fun _ => Strict.ok _

end CompileResult

namespace TooltipResult

/-- A tooltip response is denoted by the number of its request and, if they are there and
not null, its range and its tooltip. -/
def Denotes (fields : List (String × Json)) (result : TooltipResult) : Prop :=
  Schema.Holds fields "id" Schema.Word64 result.id ∧
    Schema.HoldsOr none fields "range" (Schema.Nullable Range.Denotes) result.range ∧
    Schema.HoldsOr none fields "tooltip" (Schema.Nullable Schema.Text) result.tooltip

/-- What a field does to the draft. -/
theorem Draft.take_ok (state next : Draft) (field : String) (value : Json) :
    state.take field value = .ok next ↔
      (field = "id" ∧ ∃ id, Schema.word64 value = .ok id ∧ { state with id := some id } = next) ∨
      (field = "range" ∧ ∃ range, Schema.optional Range.read value = .ok range ∧
        { state with range := range } = next) ∨
      (field = "tooltip" ∧ ∃ tooltip, Schema.optional Schema.text value = .ok tooltip ∧
        { state with tooltip := tooltip } = next) ∨
      (field ≠ "id" ∧ field ≠ "range" ∧ field ≠ "tooltip" ∧ state = next) := by
  unfold Draft.take
  split <;> simp_all [Schema.map_ok]

/-- A field that can be read can be taken. -/
theorem Draft.accepts (state : Draft) (field : String) (value : Json)
    (id : field = "id" → ∃ id, Schema.word64 value = .ok id)
    (range : field = "range" → ∃ range, Schema.optional Range.read value = .ok range)
    (tooltip : field = "tooltip" → ∃ tooltip, Schema.optional Schema.text value = .ok tooltip) :
    ∃ next, state.take field value = .ok next := by
  unfold Draft.take
  split
  · exact Schema.map_accepts _ (id rfl)
  · exact Schema.map_accepts _ (range rfl)
  · exact Schema.map_accepts _ (tooltip rfl)
  · exact ⟨state, rfl⟩

theorem Draft.id_column : Schema.Column Draft.take "id" Schema.word64 Draft.id some where
  taken _ _ _ := by rw [take_ok]; grind
  kept _ _ _ _ := by rw [take_ok]; grind

theorem Draft.range_column :
    Schema.Column Draft.take "range" (Schema.optional Range.read) Draft.range fun range => range where
  taken _ _ _ := by rw [take_ok]; grind
  kept _ _ _ _ := by rw [take_ok]; grind

theorem Draft.tooltip_column :
    Schema.Column Draft.take "tooltip" (Schema.optional Schema.text) Draft.tooltip fun tooltip => tooltip where
  taken _ _ _ := by rw [take_ok]; grind
  kept _ _ _ _ := by rw [take_ok]; grind

theorem read_ok (fields : List (String × Json)) (result : TooltipResult) :
    read fields = .ok result ↔ ∃ draft, Schema.visit Draft.take {} fields = .ok draft ∧
      draft.id = some result.id ∧ draft.range = result.range ∧ draft.tooltip = result.tooltip := by
  simp only [read, Schema.bind_ok, Schema.required_ok]
  constructor
  · rintro ⟨draft, visited, id, heldId, same⟩
    obtain rfl := Except.ok.inj same
    exact ⟨draft, visited, heldId, rfl, rfl⟩
  · rintro ⟨draft, visited, heldId, heldRange, heldTooltip⟩
    obtain ⟨id, range, tooltip⟩ := result
    subst heldRange heldTooltip
    exact ⟨draft, visited, _, heldId, rfl⟩

/-- A tooltip response is read from the fields that denote it. -/
theorem read_denotes (fields : List (String × Json)) (keyed : Json.Keyed (.object fields))
    (result : TooltipResult) : read fields = .ok result ↔ Denotes fields result := by
  rw [read_ok]
  have ranges := Schema.optional_reads Range.read_denotes
  have texts := Schema.optional_reads Schema.text_reads
  have id := Draft.id_column.holds keyed Schema.word64_reads {} rfl
  have range := Draft.range_column.holdsOr keyed ranges {}
  have tooltip := Draft.tooltip_column.holdsOr keyed texts {}
  constructor
  · rintro ⟨draft, visited, heldId, heldRange, heldTooltip⟩
    exact ⟨(id draft visited _).mp heldId, (range draft visited _).mp heldRange,
      (tooltip draft visited _).mp heldTooltip⟩
  · rintro ⟨holdsId, holdsRange, holdsTooltip⟩
    obtain ⟨draft, visited⟩ := Schema.visit_accepts Draft.take fields {} fun entry member state =>
      state.accepts entry.1 entry.2 (holdsId.readable keyed Schema.word64_reads member)
        (holdsRange.readable keyed ranges member) (holdsTooltip.readable keyed texts member)
    exact ⟨draft, visited, (id draft visited _).mpr holdsId, (range draft visited _).mpr holdsRange,
      (tooltip draft visited _).mpr holdsTooltip⟩

theorem Draft.take_strict (state : Draft) (field : String) (value : Json) :
    Strict (state.take field value) := by
  unfold take
  split
  · exact (Schema.word64_strict value).map _
  · exact (Schema.optional_strict Range.read_strict value).map _
  · exact (Schema.optional_strict Schema.text_strict value).map _
  · exact Strict.ok state

theorem read_strict (fields : List (String × Json)) : Strict (read fields) :=
  (Schema.visit_strict Draft.take_strict _ fields).bind fun _ =>
    (Schema.required_strict _ _).bind fun _ => Strict.ok _

end TooltipResult
end BuildWatch
