import ArcravenUgv.Subsystems.CommandLine

/-!
# The file bridge

`Iceoryx2Bridge`: `commands.in` is read from the offset where the last call
stopped, and telemetry and results are appended to `telemetry.out`, one record
to a line.  Printing a `double` is a parameter.
-/

namespace ArcravenUgv.Bridge

open ArcravenUgv.Command
open ArcravenUgv.Decimal
open ArcravenUgv.Delimited
open ArcravenUgv.Base64
open ArcravenUgv.CommandLine

/-- The members `pump_rx` uses besides the router and the paths. -/
structure Iceoryx2Bridge where
  initialized : Bool
  commandOffset : ℕ
  deriving DecidableEq, Repr

def Iceoryx2Bridge.create : Iceoryx2Bridge where
  initialized := false
  commandOffset := 0

/-- `std::getline` at a stream position: the line, and whether the stream ran
into the end of the file before it found a newline. -/
def getline (file : Bytes) (position : ℕ) : Option (Bytes × Bool) :=
  let rest := file.drop position
  if rest = [] then none
  else
    let line := nextSegment newline rest
    some (line, line.length = rest.length)

/-- The lines one call of `pump_rx` takes off the file, the first one at the
given offset. -/
def linesFrom (file : Bytes) (offset : ℕ) : List Bytes :=
  segments newline (file.drop offset)

/-- One call of `pump_rx`: the offset it leaves and the envelopes it hands to
`submit`, in order. -/
def pumpRx (file : Bytes) (bridge : Iceoryx2Bridge) :
    Iceoryx2Bridge × List CommandEnvelope :=
  if bridge.initialized then
    let lines := linesFrom file bridge.commandOffset
    ({ bridge with commandOffset := bridge.commandOffset + extent lines },
      lines.filterMap lineEnvelope)
  else (bridge, [])

/-- One turn of the loop in `pump_rx`. -/
theorem linesFrom_of_getline {file line : Bytes} {offset : ℕ} {atEnd : Bool}
    (hline : getline file offset = some (line, atEnd)) :
    linesFrom file offset = line :: linesFrom file (offset + (line.length + 1)) := by
  simp only [getline] at hline
  split_ifs at hline with hrest
  simp only [Option.some.injEq, Prod.mk.injEq] at hline
  obtain ⟨rfl, -⟩ := hline
  rw [linesFrom, segments_eq_cons hrest, linesFrom, List.drop_drop]

theorem linesFrom_of_getline_none {file : Bytes} {offset : ℕ}
    (hline : getline file offset = none) : linesFrom file offset = [] := by
  simp only [getline] at hline
  split_ifs at hline with hrest
  simp [linesFrom, hrest]

/-- Nothing follows a line that ran into the end of the file. -/
theorem linesFrom_of_atEnd {file line : Bytes} {offset : ℕ}
    (hline : getline file offset = some (line, true)) :
    linesFrom file (offset + (line.length + 1)) = [] := by
  simp only [getline] at hline
  split_ifs at hline with hrest
  simp only [Option.some.injEq, Prod.mk.injEq, decide_eq_true_eq, List.length_drop] at hline
  have hpast : file.drop (offset + (line.length + 1)) = [] :=
    List.drop_eq_nil_of_le (by rw [← hline.1]; omega)
  simp [linesFrom, hpast]

/-! ## What is published -/

structure SensorFrame where
  timestampNs : UInt64
  ids : List Bytes
  types : List Bytes
  payloads : List Bytes
  deriving DecidableEq, Repr

structure JointState (Double : Type) where
  id : Bytes
  name : Bytes
  position : Double
  velocity : Double
  load : Double
  deriving DecidableEq, Repr

/-- `out << "|" << field`. -/
def field (text : Bytes) : Bytes := bar :: text

def jointFields {Double : Type} (print : Double → Bytes) (joint : JointState Double) : Bytes :=
  field joint.id ++ field joint.name ++ field (print joint.position) ++
    field (print joint.velocity) ++ field (print joint.load)

/-- The ids, types and payloads of the first `sensor_count` sensors; the count
is the least of the three lengths. -/
def sensorFields (frame : SensorFrame) : List (Bytes × Bytes × Bytes) :=
  frame.ids.zip (frame.types.zip frame.payloads)

def publishTelemetry {Double : Type} (print : Double → Bytes) (frame : SensorFrame)
    (joints : List (JointState Double)) : Bytes :=
  ascii "T|" ++ decimal frame.timestampNs.toNat ++ field (decimal joints.length) ++
    joints.flatMap (jointFields print) ++ field (decimal (sensorFields frame).length) ++
    (sensorFields frame).flatMap (fun (id, type, payload) =>
      field id ++ field type ++ field (base64Encode payload)) ++ [newline]

/-- Every `'|'` of a message becomes `'/'`. -/
def sanitize (message : Bytes) : Bytes :=
  message.map fun char => if char = bar then 47 else char

def publishCommandResult (commandId : UInt64) (result : CommandResult) : Bytes :=
  ascii "R|" ++ decimal commandId.toNat ++ field (decimal result.status.wire.toNat) ++
    field (decimal result.rejectReason.wire.toNat) ++ field (sanitize result.message) ++
    [newline]

/-! ## One record to a line -/

/-- The line of a result, without its newline. -/
def resultLine (commandId : UInt64) (result : CommandResult) : Bytes :=
  joined bar [ascii "R", decimal commandId.toNat, decimal result.status.wire.toNat,
    decimal result.rejectReason.wire.toNat, sanitize result.message]

theorem publishCommandResult_eq (commandId : UInt64) (result : CommandResult) :
    publishCommandResult commandId result = resultLine commandId result ++ [newline] := by
  simp [publishCommandResult, resultLine, joined, field, ascii, bar]

/-- The line of a frame without sensors or joints. -/
def emptyFrameLine (timestampNs : UInt64) : Bytes :=
  joined bar [ascii "T", decimal timestampNs.toNat, decimal 0, decimal 0]

theorem publishTelemetry_eq {Double : Type} (print : Double → Bytes) {frame : SensorFrame}
    (hids : frame.ids = []) :
    publishTelemetry print frame [] = emptyFrameLine frame.timestampNs ++ [newline] := by
  simp [publishTelemetry, emptyFrameLine, sensorFields, hids, joined, field, ascii, bar]

/-- A record of type `R` for this command. -/
def IsResultOf (commandId : UInt64) (line : Bytes) : Prop :=
  (segments bar line).take 2 = [ascii "R", decimal commandId.toNat]

instance (commandId : UInt64) (line : Bytes) : Decidable (IsResultOf commandId line) :=
  inferInstanceAs (Decidable (_ = _))

/-- How many results a text of records holds for a command. -/
def resultCount (commandId : UInt64) (records : Bytes) : ℕ :=
  (segments newline records).countP fun line => IsResultOf commandId line

theorem newline_not_mem_sanitize {message : Bytes} (hmessage : newline ∉ message) :
    newline ∉ sanitize message := by
  intro hmem
  obtain ⟨char, hchar, heq⟩ := List.mem_map.1 hmem
  split at heq
  · exact absurd heq (by decide)
  · exact hmessage (heq ▸ hchar)

theorem newline_not_mem_resultLine (commandId : UInt64) {result : CommandResult}
    (hmessage : newline ∉ result.message) : newline ∉ resultLine commandId result := by
  intro hmem
  rcases mem_joined hmem with hbar | ⟨piece, hpiece, hchar⟩
  · exact absurd hbar (by decide)
  · simp only [List.mem_cons, List.not_mem_nil, or_false] at hpiece
    rcases hpiece with rfl | rfl | rfl | rfl | rfl
    · exact absurd hchar (by decide)
    · exact not_mem_decimal (by decide) hchar
    · exact not_mem_decimal (by decide) hchar
    · exact not_mem_decimal (by decide) hchar
    · exact newline_not_mem_sanitize hmessage hchar

theorem newline_not_mem_emptyFrameLine (timestampNs : UInt64) :
    newline ∉ emptyFrameLine timestampNs := by
  intro hmem
  rcases mem_joined hmem with hbar | ⟨piece, hpiece, hchar⟩
  · exact absurd hbar (by decide)
  · simp only [List.mem_cons, List.not_mem_nil, or_false] at hpiece
    rcases hpiece with rfl | rfl | rfl | rfl
    · exact absurd hchar (by decide)
    · exact not_mem_decimal (by decide) hchar
    · exact not_mem_decimal (by decide) hchar
    · exact not_mem_decimal (by decide) hchar

private theorem take_segments_record {tag : Bytes} (number : ℕ) {rest : List Bytes}
    (htag : bar ∉ tag) (hrest : rest ≠ []) :
    (segments bar (joined bar (tag :: decimal number :: rest))).take 2 =
      [tag, decimal number] := by
  obtain ⟨piece, pieces, rfl⟩ := List.exists_cons_of_ne_nil hrest
  have htext : joined bar (tag :: decimal number :: piece :: pieces) =
      tag ++ bar :: (decimal number ++ bar :: joined bar (piece :: pieces)) := rfl
  rw [htext, segments_append_delim htag,
    segments_append_delim (not_mem_decimal (by decide))]
  rfl

theorem isResultOf_resultLine {id commandId : UInt64} {result : CommandResult} :
    IsResultOf id (resultLine commandId result) ↔ commandId = id := by
  rw [IsResultOf, resultLine, take_segments_record _ (by decide) (by simp)]
  constructor
  · intro heq
    have hdigits : decimal commandId.toNat = decimal id.toNat := by simpa using heq
    have hvalue := congrArg digitsValue hdigits
    rw [digitsValue_decimal, digitsValue_decimal] at hvalue
    exact UInt64.toNat_inj.1 hvalue
  · rintro rfl
    rfl

theorem not_isResultOf_emptyFrameLine (id timestampNs : UInt64) :
    ¬ IsResultOf id (emptyFrameLine timestampNs) := by
  rw [IsResultOf, emptyFrameLine, take_segments_record _ (by decide) (by simp)]
  intro heq
  exact absurd (List.cons.inj heq).1 (by decide)

end ArcravenUgv.Bridge
