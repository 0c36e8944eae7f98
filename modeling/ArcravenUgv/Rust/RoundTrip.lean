import ArcravenUgv.Rust.Records

/-!
# Lines from the core to the client

What `publish_telemetry` and `publish_command_result` of the core write, as the
parts between their bars, and what `parse_telemetry_line` and
`parse_result_line` of the client make of them.
-/

namespace ArcravenUgv.RoundTrip

open ArcravenUgv.Enums
open ArcravenUgv.Command
open ArcravenUgv.Decimal
open ArcravenUgv.Delimited
open ArcravenUgv.Base64
open ArcravenUgv.CommandLine
open ArcravenUgv.Bridge
open ArcravenUgv.RustText
open ArcravenUgv.RustRecords

variable {Double F64 : Type}

/-! ## The line -/

def jointParts (print : Double → Bytes) (joint : JointState Double) : List Bytes :=
  [joint.id, joint.name, print joint.position, print joint.velocity, print joint.load]

def sensorParts (sensor : Bytes × Bytes × Bytes) : List Bytes :=
  [sensor.1, sensor.2.1, base64Encode sensor.2.2]

/-- The parts behind the tag. -/
def telemetryParts (print : Double → Bytes) (frame : SensorFrame)
    (joints : List (JointState Double)) : List Bytes :=
  decimal frame.timestampNs.toNat :: decimal joints.length ::
    (joints.flatMap (jointParts print) ++ decimal (sensorFields frame).length ::
      (sensorFields frame).flatMap sensorParts)

/-- The line of a frame, without its newline. -/
def telemetryLine (print : Double → Bytes) (frame : SensorFrame)
    (joints : List (JointState Double)) : Bytes :=
  joined bar (ascii "T" :: telemetryParts print frame joints)

theorem publishTelemetry_eq_line (print : Double → Bytes) (frame : SensorFrame)
    (joints : List (JointState Double)) :
    publishTelemetry print frame joints = telemetryLine print frame joints ++ [newline] := by
  have hjoint : jointFields print = fun joint => (jointParts print joint).flatMap (bar :: ·) := by
    funext joint
    simp [jointFields, jointParts, field]
  have hsensor : (fun sensor : Bytes × Bytes × Bytes =>
      field sensor.1 ++ field sensor.2.1 ++ field (base64Encode sensor.2.2)) =
      fun sensor => (sensorParts sensor).flatMap (bar :: ·) := by
    funext sensor
    simp [sensorParts, field]
  rw [publishTelemetry, hjoint, hsensor, ← List.flatMap_assoc, ← List.flatMap_assoc,
    telemetryLine, joined_eq_flatMap, telemetryParts]
  simp [field, ascii, bar]

/-- The strings that stand in the line as they are. -/
def freeTexts (frame : SensorFrame) (joints : List (JointState Double)) : List Bytes :=
  joints.flatMap (fun joint => [joint.id, joint.name]) ++
    (sensorFields frame).flatMap fun sensor => [sensor.1, sensor.2.1]

/-- What the C++ and the Rust library are relied on for: a printed `double` is a
text of one field, and parsing gives its value. -/
structure Prints (print : Double → Bytes) (parse : Bytes → Option F64)
    (value : Double → F64) : Prop where
  one_field : ∀ number, bar ∉ print number ∧ newline ∉ print number
  utf8 : ∀ number, Utf8.valid (print number) = true
  parsed : ∀ number, parse (print number) = some (value number)

/-- The text stays within its field. -/
def OneField (text : Bytes) : Prop := bar ∉ text ∧ newline ∉ text

instance (text : Bytes) : Decidable (OneField text) :=
  inferInstanceAs (Decidable (_ ∧ _))

def receivedJoint (value : Double → F64) (joint : JointState Double) : RustJointState F64 where
  id := joint.id
  name := joint.name
  position := value joint.position
  velocity := value joint.velocity
  load := value joint.load

def receivedPayload (sensor : Bytes × Bytes × Bytes) : SensorPayload where
  id := sensor.1
  sensorType := sensor.2.1
  payload := sensor.2.2

/-- The published frame as the client should have it. -/
def receivedFrame (value : Double → F64) (frame : SensorFrame)
    (joints : List (JointState Double)) : TelemetryFrame F64 where
  timestampNs := frame.timestampNs
  joints := joints.map (receivedJoint value)
  sensors := []
  payloads := (sensorFields frame).map receivedPayload

/-! ## The bytes of the line -/

/-- A printable byte of seven bits other than the bar. -/
private theorem encode_byte {bytes : Bytes} {byte : UInt8} (hmem : byte ∈ base64Encode bytes) :
    33 ≤ byte ∧ byte ≤ 0x7F ∧ byte ≠ bar ∧ byte ≠ newline := by
  rw [base64Encode_eq] at hmem
  have hrange : 43 ≤ byte.toNat ∧ byte.toNat ≤ 122 := by
    rcases Radix64.mem_encode hmem with ⟨digit, rfl⟩ | rfl
    · rcases Radix64.alphabet_range digit with heq | hrange | hrange
      · simp [heq]
      · omega
      · omega
    · decide
  refine ⟨?_, ?_, ?_, ?_⟩
  · rw [UInt8.le_iff_toNat_le]
    exact le_trans (by decide) hrange.1
  · rw [UInt8.le_iff_toNat_le]
    exact le_trans hrange.2 (by decide)
  · rintro rfl
    exact absurd hrange.2 (by decide)
  · rintro rfl
    exact absurd hrange.1 (by decide)

private theorem decimal_byte {number : ℕ} {byte : UInt8} (hmem : byte ∈ decimal number) :
    33 ≤ byte ∧ byte ≤ 0x7F ∧ byte ≠ bar ∧ byte ≠ newline := by
  have hdigit := isDigit_of_mem_decimal hmem
  simp only [isDigit, Bool.and_eq_true, decide_eq_true_eq, UInt8.le_iff_toNat_le,
    UInt8.reduceToNat] at hdigit
  refine ⟨?_, ?_, ?_, ?_⟩
  · rw [UInt8.le_iff_toNat_le]
    exact le_trans (by decide) hdigit.1
  · rw [UInt8.le_iff_toNat_le]
    exact le_trans hdigit.2 (by decide)
  · rintro rfl
    exact absurd hdigit.2 (by decide)
  · rintro rfl
    exact absurd hdigit.1 (by decide)

section Line

variable {print : Double → Bytes} {parse : Bytes → Option F64} {value : Double → F64}
variable {frame : SensorFrame} {joints : List (JointState Double)}

/-- What holds of every number, printed double, encoded payload and free text of
a line holds of every part. -/
theorem forall_parts {holds : Bytes → Prop} (hdecimal : ∀ number, holds (decimal number))
    (hencode : ∀ bytes, holds (base64Encode bytes)) (hprint : ∀ number, holds (print number))
    (hfree : ∀ text ∈ freeTexts frame joints, holds text) :
    ∀ part ∈ telemetryParts print frame joints, holds part := by
  intro part hpart
  simp only [telemetryParts, List.mem_cons, List.mem_append, List.mem_flatMap] at hpart
  rcases hpart with rfl | rfl | ⟨joint, hjoint, hpart⟩ | rfl | ⟨sensor, hsensor, hpart⟩
  · exact hdecimal _
  · exact hdecimal _
  · have htext : ∀ text ∈ [joint.id, joint.name], holds text := fun text htext =>
      hfree text (List.mem_append_left _ (List.mem_flatMap.2 ⟨joint, hjoint, htext⟩))
    simp only [jointParts, List.mem_cons, List.not_mem_nil, or_false] at hpart
    rcases hpart with rfl | rfl | rfl | rfl | rfl
    · exact htext _ (by simp)
    · exact htext _ (by simp)
    · exact hprint _
    · exact hprint _
    · exact hprint _
  · exact hdecimal _
  · have htext : ∀ text ∈ [sensor.1, sensor.2.1], holds text := fun text htext =>
      hfree text (List.mem_append_right _ (List.mem_flatMap.2 ⟨sensor, hsensor, htext⟩))
    simp only [sensorParts, List.mem_cons, List.not_mem_nil, or_false] at hpart
    rcases hpart with rfl | rfl | rfl
    · exact htext _ (by simp)
    · exact htext _ (by simp)
    · exact hencode _

theorem oneField_parts (hprints : Prints print parse value)
    (hfree : ∀ text ∈ freeTexts frame joints, OneField text) :
    ∀ part ∈ telemetryParts print frame joints, OneField part :=
  forall_parts
    (fun _ => ⟨fun hmem => (decimal_byte hmem).2.2.1 rfl,
      fun hmem => (decimal_byte hmem).2.2.2 rfl⟩)
    (fun _ => ⟨fun hmem => (encode_byte hmem).2.2.1 rfl, fun hmem => (encode_byte hmem).2.2.2 rfl⟩)
    hprints.one_field hfree

theorem newline_not_mem_telemetryLine (hprints : Prints print parse value)
    (hfree : ∀ text ∈ freeTexts frame joints, OneField text) :
    newline ∉ telemetryLine print frame joints := by
  intro hmem
  rcases mem_joined hmem with hbar | ⟨piece, hpiece, hchar⟩
  · exact absurd hbar (by decide)
  · rcases List.mem_cons.1 hpiece with rfl | hpiece
    · exact absurd hchar (by decide)
    · exact (oneField_parts hprints hfree piece hpiece).2 hchar

theorem splitOn_telemetryLine (hprints : Prints print parse value)
    (hfree : ∀ text ∈ freeTexts frame joints, OneField text) :
    (telemetryLine print frame joints).splitOn bar =
      ascii "T" :: telemetryParts print frame joints := by
  refine splitOn_joined fun piece hpiece => ?_
  rcases List.mem_cons.1 hpiece with rfl | hpiece
  · decide
  · exact (oneField_parts hprints hfree piece hpiece).1

/-- Pieces of UTF-8 between bars. -/
theorem valid_joined {head : Bytes} {pieces : List Bytes}
    (hvalid : ∀ piece ∈ head :: pieces, Utf8.valid piece = true) :
    Utf8.valid (joined bar (head :: pieces)) = true := by
  induction pieces generalizing head with
  | nil => exact hvalid head (by simp)
  | cons piece pieces ih =>
      rw [joined_cons_cons, Utf8.valid_cut (by decide), hvalid head (by simp),
        ih fun other hother => hvalid other (List.mem_cons_of_mem _ hother)]
      rfl

theorem valid_telemetryLine (hprints : Prints print parse value)
    (hfree : ∀ text ∈ freeTexts frame joints, Utf8.valid text = true) :
    Utf8.valid (telemetryLine print frame joints) = true := by
  refine valid_joined fun piece hpiece => ?_
  rcases List.mem_cons.1 hpiece with rfl | hpiece
  · decide
  · exact forall_parts
      (fun _ => Utf8.valid_of_ascii fun _ hmem => (decimal_byte hmem).2.1)
      (fun _ => Utf8.valid_of_ascii fun _ hmem => (encode_byte hmem).2.1)
      hprints.utf8 hfree piece hpiece

/-- A line trims to itself when its last field is empty or plain text. -/
private theorem trimmed_of_field {before last : Bytes}
    (hplain : ∀ byte ∈ last, 33 ≤ byte ∧ byte ≤ 0x7F ∧ byte ≠ bar ∧ byte ≠ newline) :
    Trimmed (before ++ bar :: last) := by
  cases last using List.reverseRecOn with
  | nil =>
      have hlast : (before ++ [bar]).getLast? = some bar := by simp
      exact trimmed_of_last hlast (by decide) (by decide)
  | append_singleton init byte =>
      obtain ⟨hlow, hhigh, -, -⟩ := hplain byte (by simp)
      have hlast : (before ++ bar :: (init ++ [byte])).getLast? = some byte := by
        rw [← List.cons_append, ← List.append_assoc, List.getLast?_concat]
      refine trimmed_of_last hlast hhigh ?_
      · simp only [UInt8.le_iff_toNat_le, UInt8.reduceToNat] at hlow
        have hspace : byte ≠ 32 := by
          rintro rfl
          exact absurd hlow (by decide)
        simp only [isWhiteSpace, hspace, decide_false, Bool.or_false, Bool.and_eq_false_imp,
          decide_eq_true_eq, decide_eq_false_iff_not, UInt8.le_iff_toNat_le, UInt8.reduceToNat]
        omega

/-- Whatever the strings are, a line ends in a number, a base64 text or a bar. -/
theorem trimmed_telemetryLine (print : Double → Bytes) (frame : SensorFrame)
    (joints : List (JointState Double)) : Trimmed (telemetryLine print frame joints) := by
  have hlast : ∃ init last, telemetryParts print frame joints = init ++ [last] ∧
      ∀ byte ∈ last, 33 ≤ byte ∧ byte ≤ 0x7F ∧ byte ≠ bar ∧ byte ≠ newline := by
    rw [telemetryParts]
    cases sensorFields frame using List.reverseRecOn with
    | nil =>
        exact ⟨decimal frame.timestampNs.toNat :: decimal joints.length ::
            joints.flatMap (jointParts print), decimal 0, by simp, fun _ => decimal_byte⟩
    | append_singleton sensors sensor =>
        exact ⟨decimal frame.timestampNs.toNat :: decimal joints.length ::
            (joints.flatMap (jointParts print) ++ decimal (sensors ++ [sensor]).length ::
              (sensors.flatMap sensorParts ++ [sensor.1, sensor.2.1])),
          base64Encode sensor.2.2, by simp [sensorParts], fun _ => encode_byte⟩
  obtain ⟨init, last, hparts, hplain⟩ := hlast
  rw [telemetryLine, hparts, joined_concat]
  exact trimmed_of_field hplain

theorem trimEnd_publishTelemetry (print : Double → Bytes) (frame : SensorFrame)
    (joints : List (JointState Double)) :
    trimEnd (publishTelemetry print frame joints) = telemetryLine print frame joints := by
  rw [publishTelemetry_eq_line, trimEnd_append_newline,
    trimEnd_of_trimmed (trimmed_telemetryLine print frame joints)]

/-! ## Parsing it -/

theorem readJoint_parts (hprints : Prints print parse value) (joint : JointState Double)
    (rest : List Bytes) :
    readJoint parse (jointParts print joint ++ rest) = .ok (receivedJoint value joint, rest) := by
  simp [readJoint, jointParts, receivedJoint, hprints.parsed]

/-- A payload is refused when it is not UTF-8. -/
def readPayload (sensor : Bytes × Bytes × Bytes) : Except Refusal SensorPayload :=
  if Utf8.valid sensor.2.2 then .ok (receivedPayload sensor) else .error .none

theorem readSensor_parts (sensor : Bytes × Bytes × Bytes) (rest : List Bytes) :
    readSensor (sensorParts sensor ++ rest) =
      (readPayload sensor).map fun payload => (payload, rest) := by
  have hdecode : Radix64.decode (base64Encode sensor.2.2) = some sensor.2.2 := by
    rw [base64Encode_eq, Radix64.decode_encode]
  by_cases hvalid : Utf8.valid sensor.2.2 = true
  · simp [readSensor, sensorParts, hdecode, fromUtf8, readPayload, hvalid, receivedPayload,
      Except.map]
  · simp [readSensor, sensorParts, hdecode, fromUtf8, readPayload, hvalid, Except.map]

/-- The line as `parse_telemetry_line` reads it: what can go wrong is the counts
and the payloads. -/
theorem parseTelemetryLine_eq (hprints : Prints print parse value)
    (hfree : ∀ text ∈ freeTexts frame joints, OneField text) :
    parseTelemetryLine parse (telemetryLine print frame joints) = (do
      let _ ← orNone (parseUnsigned 64 (decimal joints.length))
      withCapacity joints.length
      let _ ← orNone (parseUnsigned 64 (decimal (sensorFields frame).length))
      withCapacity (sensorFields frame).length
      let payloads ← (sensorFields frame).mapM readPayload
      .ok { receivedFrame value frame joints with payloads := payloads }) := by
  have htimestamp : parseUnsigned 64 (decimal frame.timestampNs.toNat) =
      some frame.timestampNs.toNat := by
    rw [parseUnsigned_decimal, if_pos frame.timestampNs.toNat_lt]
  have hjoints : ∀ rest, repeated (readJoint parse) joints.length
      (joints.flatMap (jointParts print) ++ rest) =
        .ok (joints.map (receivedJoint value), rest) :=
    repeated_flatMap fun joint _ => readJoint_parts hprints joint
  have hsensors : repeated readSensor (sensorFields frame).length
      ((sensorFields frame).flatMap sensorParts ++ []) =
        ((sensorFields frame).mapM readPayload).map fun all => (all, []) :=
    repeated_flatMap_error (fun sensor _ => readSensor_parts sensor) []
  rw [List.append_nil] at hsensors
  simp only [parseTelemetryLine, splitOn_telemetryLine hprints hfree, telemetryParts, next_cons,
    orNone_some, ok_bind, ne_eq, not_true_eq_false, if_false, htimestamp]
  by_cases hjointCount : joints.length < 2 ^ 64
  · rw [parseUnsigned_decimal, if_pos hjointCount]
    simp only [orNone_some, ok_bind, hjoints, next_cons]
    by_cases hsensorCount : (sensorFields frame).length < 2 ^ 64
    · rw [parseUnsigned_decimal, if_pos hsensorCount]
      simp only [orNone_some, ok_bind, hsensors]
      cases (sensorFields frame).mapM readPayload <;> simp [Except.map, receivedFrame]
    · rw [parseUnsigned_decimal, if_neg hsensorCount]
      simp
  · rw [parseUnsigned_decimal, if_neg hjointCount]
    simp

theorem mapM_readPayload {sensors : List (Bytes × Bytes × Bytes)}
    (hpayloads : ∀ sensor ∈ sensors, Utf8.valid sensor.2.2 = true) :
    sensors.mapM readPayload = .ok (sensors.map receivedPayload) := by
  induction sensors with
  | nil => rfl
  | cons sensor sensors ih =>
      rw [List.mapM_cons, readPayload, if_pos (hpayloads sensor (by simp)),
        ih fun other hother => hpayloads other (List.mem_cons_of_mem _ hother)]
      rfl

/-- The vectors lie in one half of the address space, with 88 bytes a joint and
32 bytes a string. -/
def InMemory (frame : SensorFrame) (joints : List (JointState Double)) : Prop :=
  joints.length * 88 + frame.ids.length * 32 + frame.types.length * 32 +
    frame.payloads.length * 32 < 2 ^ 63

instance (frame : SensorFrame) (joints : List (JointState Double)) :
    Decidable (InMemory frame joints) :=
  inferInstanceAs (Decidable (_ < _))

theorem length_sensorFields (frame : SensorFrame) : (sensorFields frame).length =
    min frame.ids.length (min frame.types.length frame.payloads.length) := by
  simp [sensorFields]

theorem withCapacity_of_inMemory (hmemory : InMemory frame joints) :
    withCapacity joints.length = .ok () ∧
      withCapacity (sensorFields frame).length = .ok () := by
  have hsensors := length_sensorFields frame
  unfold InMemory at hmemory
  constructor
  · rw [withCapacity, if_neg (by omega)]
  · rw [withCapacity, if_neg (by omega)]

theorem parseTelemetryLine_telemetryLine (hprints : Prints print parse value)
    (hfree : ∀ text ∈ freeTexts frame joints, OneField text)
    (hpayloads : ∀ sensor ∈ sensorFields frame, Utf8.valid sensor.2.2 = true)
    (hmemory : InMemory frame joints) :
    parseTelemetryLine parse (telemetryLine print frame joints) =
      .ok (receivedFrame value frame joints) := by
  obtain ⟨hjointRoom, hsensorRoom⟩ := withCapacity_of_inMemory hmemory
  have hsensors := length_sensorFields frame
  have hjointCount : joints.length < 2 ^ 64 := by
    unfold InMemory at hmemory
    omega
  have hsensorCount : (sensorFields frame).length < 2 ^ 64 := by
    unfold InMemory at hmemory
    omega
  rw [parseTelemetryLine_eq hprints hfree, parseUnsigned_decimal, if_pos hjointCount,
    parseUnsigned_decimal, if_pos hsensorCount, hjointRoom, hsensorRoom,
    mapM_readPayload hpayloads]
  rfl

/-- What `publish_telemetry` writes is UTF-8, and the client reads it as the
frame that was published. -/
theorem telemetry_received (hprints : Prints print parse value)
    (hfree : ∀ text ∈ freeTexts frame joints, OneField text ∧ Utf8.valid text = true)
    (hpayloads : ∀ sensor ∈ sensorFields frame, Utf8.valid sensor.2.2 = true)
    (hmemory : InMemory frame joints) :
    Utf8.valid (publishTelemetry print frame joints) = true ∧
      parseTelemetryLine parse (trimEnd (publishTelemetry print frame joints)) =
        .ok (receivedFrame value frame joints) := by
  constructor
  · rw [publishTelemetry_eq_line, Utf8.valid_append
      (valid_telemetryLine hprints fun text htext => (hfree text htext).2)]
    rfl
  · rw [trimEnd_publishTelemetry]
    exact parseTelemetryLine_telemetryLine hprints (fun text htext => (hfree text htext).1)
      hpayloads hmemory

end Line

/-! ## Result lines -/

/-- The reason as the client knows it, which has no `SafetyLockout`. -/
def receivedReason : RejectReason → RejectReason
  | .safetyLockout => .none
  | reason => reason

/-- The published result as the client should have it. -/
def receivedResult (commandId : UInt64) (result : CommandResult) : CommandResultEvent where
  commandId := commandId
  result := {
    status := result.status
    rejectReason := receivedReason result.rejectReason
    message := sanitize result.message }

theorem statusFromU16_wire (status : CommandStatus) :
    statusFromU16 status.wire.toNat = status := by
  cases status <;> rfl

theorem rejectFromU16_wire (reason : RejectReason) :
    rejectFromU16 reason.wire.toNat = receivedReason reason := by
  cases reason <;> rfl

theorem bar_not_mem_sanitize (message : Bytes) : bar ∉ sanitize message := by
  intro hmem
  obtain ⟨char, -, heq⟩ := List.mem_map.1 hmem
  split_ifs at heq with hchar
  · cases heq
  · exact hchar heq

theorem sanitize_of_not_mem {message : Bytes} (hbar : bar ∉ message) :
    sanitize message = message := by
  have hsame : message.map (fun char => if char = bar then 47 else char) = message.map id :=
    List.map_congr_left fun char hchar => if_neg fun heq : char = bar => hbar (heq ▸ hchar)
  rw [sanitize, hsame, List.map_id]

/-- One byte of seven bits in place of another. -/
theorem valid_sanitize (message : Bytes) :
    Utf8.valid (sanitize message) = Utf8.valid message := by
  by_cases hbar : bar ∈ message
  · obtain ⟨before, after, rfl⟩ := List.append_of_mem hbar
    have hsanitize : sanitize (before ++ bar :: after) =
        sanitize before ++ 47 :: sanitize after := by simp [sanitize]
    rw [hsanitize, Utf8.valid_cut (by decide), Utf8.valid_cut (by decide),
      valid_sanitize before, valid_sanitize after]
  · rw [sanitize_of_not_mem hbar]
termination_by message.length

theorem trimmed_sanitize {message : Bytes} (htrimmed : Trimmed message) :
    Trimmed (sanitize message) := by
  intro front char heq
  refine Bool.eq_false_iff.2 fun hspace => ?_
  obtain ⟨before, last, rfl, rfl, rfl⟩ := List.map_eq_append_iff.1 heq
  -- A slash is no white space, so the last character had no bar.
  have hbar : bar ∉ last := by
    intro hbar
    have hslash : (47 : UInt8) ∈ sanitize last := List.mem_map.2 ⟨bar, hbar, rfl⟩
    rcases last with _ | ⟨first, _ | ⟨second, rest⟩⟩
    · cases hbar
    · obtain rfl : bar = first := by simpa using hbar
      cases hspace
    · exact absurd (le_of_mem_isWhiteSpace hspace hslash) (by decide)
  have hlast : isWhiteSpace (sanitize last) = true := hspace
  rw [sanitize_of_not_mem hbar, htrimmed before last rfl] at hlast
  cases hlast

theorem trimmed_resultLine (commandId : UInt64) {result : CommandResult}
    (htrimmed : Trimmed result.message) : Trimmed (resultLine commandId result) := by
  have hline := joined_concat bar (ascii "R") (sanitize result.message)
    [decimal commandId.toNat, decimal result.status.wire.toNat,
      decimal result.rejectReason.wire.toNat]
  rw [resultLine]
  simp only [List.cons_append, List.nil_append] at hline
  rw [hline]
  exact (trimmed_sanitize htrimmed).append _

private theorem resultLine_parts {commandId : UInt64} {result : CommandResult} {part : Bytes}
    (hpart : part ∈ [ascii "R", decimal commandId.toNat, decimal result.status.wire.toNat,
      decimal result.rejectReason.wire.toNat, sanitize result.message]) :
    part = sanitize result.message ∨
      ∀ byte ∈ part, 33 ≤ byte ∧ byte ≤ 0x7F ∧ byte ≠ bar ∧ byte ≠ newline := by
  simp only [List.mem_cons, List.not_mem_nil, or_false] at hpart
  rcases hpart with rfl | rfl | rfl | rfl | rfl
  · exact .inr (by decide +kernel)
  · exact .inr fun _ => decimal_byte
  · exact .inr fun _ => decimal_byte
  · exact .inr fun _ => decimal_byte
  · exact .inl rfl

theorem valid_resultLine (commandId : UInt64) {result : CommandResult}
    (hutf8 : Utf8.valid result.message = true) :
    Utf8.valid (resultLine commandId result) = true := by
  refine valid_joined fun part hpart => ?_
  rcases resultLine_parts hpart with rfl | hplain
  · rw [valid_sanitize, hutf8]
  · exact Utf8.valid_of_ascii fun byte hbyte => (hplain byte hbyte).2.1

theorem splitOn_resultLine (commandId : UInt64) (result : CommandResult) :
    (resultLine commandId result).splitOn bar = [ascii "R", decimal commandId.toNat,
      decimal result.status.wire.toNat, decimal result.rejectReason.wire.toNat,
      sanitize result.message] := by
  refine splitOn_joined fun part hpart => ?_
  rcases resultLine_parts hpart with rfl | hplain
  · exact bar_not_mem_sanitize _
  · exact fun hmem => (hplain bar hmem).2.2.1 rfl

theorem parseResultLine_resultLine (commandId : UInt64) (result : CommandResult) :
    parseResultLine (resultLine commandId result) = some (receivedResult commandId result) := by
  have hid : commandId.toNat < 2 ^ 64 := commandId.toNat_lt
  have hstatus : result.status.wire.toNat < 2 ^ 16 :=
    lt_trans result.status.wire.toNat_lt (by decide)
  have hreason : result.rejectReason.wire.toNat < 2 ^ 16 :=
    lt_trans result.rejectReason.wire.toNat_lt (by decide)
  simp only [parseResultLine, splitOn_resultLine, next_cons, parseUnsigned_decimal, hid, hstatus,
    hreason, if_true, Option.bind_eq_bind, Option.bind_some, statusFromU16_wire, rejectFromU16_wire]
  simp [receivedResult]

/-! ## Whole numbers for doubles -/

def printWhole (number : UInt64) : Bytes := decimal number.toNat

def parseWhole (text : Bytes) : Option UInt64 :=
  (parseUnsigned 64 text).map UInt64.ofNat

theorem prints_whole : Prints printWhole parseWhole id where
  one_field _ := ⟨fun hmem => (decimal_byte hmem).2.2.1 rfl,
    fun hmem => (decimal_byte hmem).2.2.2 rfl⟩
  utf8 _ := Utf8.valid_of_ascii fun _ hmem => (decimal_byte hmem).2.1
  parsed number := by
    simp [printWhole, parseWhole, parseUnsigned_decimal, number.toNat_lt]

private def wheel : JointState UInt64 where
  id := ascii "fl"
  name := []
  position := 3
  velocity := 0
  load := 1

/-- A lidar with an empty payload, and an id too many. -/
private def sweep : SensorFrame where
  timestampNs := 42
  ids := [ascii "lidar", ascii "imu"]
  types := [ascii "scan"]
  payloads := [[]]

theorem sweep_received :
    Utf8.valid (publishTelemetry printWhole sweep [wheel]) = true ∧
      parseTelemetryLine parseWhole (trimEnd (publishTelemetry printWhole sweep [wheel])) =
        .ok (receivedFrame id sweep [wheel]) := by
  refine telemetry_received prints_whole ?_ ?_ ?_
  · decide
  · decide
  · decide

end ArcravenUgv.RoundTrip
