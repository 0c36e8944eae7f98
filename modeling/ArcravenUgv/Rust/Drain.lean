import ArcravenUgv.Rust.RoundTrip

/-!
# Draining `telemetry.out`

`drain_lines` of the Rust client: the file is read on from the offset where the
last call stopped, and every line is kept as a frame, as a result or not at all.
A panic inside `parse_telemetry_line` leaves the offset behind the line.
-/

namespace ArcravenUgv.Drain

open ArcravenUgv.Command
open ArcravenUgv.Decimal
open ArcravenUgv.Delimited
open ArcravenUgv.CommandLine
open ArcravenUgv.Bridge
open ArcravenUgv.RustText
open ArcravenUgv.RustRecords
open ArcravenUgv.RoundTrip

variable {Double F64 : Type}

/-- The members `drain_lines` uses besides the path. -/
structure Iceoryx2Transport (F64 : Type) where
  telemetryOffset : ℕ
  pendingTelemetry : List (TelemetryFrame F64)
  pendingResults : List CommandResultEvent
  deriving DecidableEq, Repr

def Iceoryx2Transport.new : Iceoryx2Transport F64 where
  telemetryOffset := 0
  pendingTelemetry := []
  pendingResults := []

/-- One turn of the loop, and whether it panicked. -/
def drainLine (parse : Bytes → Option F64) (transport : Iceoryx2Transport F64) (line : Bytes) :
    Iceoryx2Transport F64 × Bool :=
  let transport :=
    { transport with telemetryOffset := transport.telemetryOffset + line.length }
  match parseTelemetryLine parse (trimEnd line) with
  | .ok frame =>
      ({ transport with pendingTelemetry := transport.pendingTelemetry ++ [frame] }, false)
  | .error .capacityOverflow => (transport, true)
  | .error .none =>
      match parseResultLine (trimEnd line) with
      | some result =>
          ({ transport with pendingResults := transport.pendingResults ++ [result] }, false)
      | none => (transport, false)

/-- The loop over the lines that are left in the file. -/
def drainRecords (parse : Bytes → Option F64) :
    Iceoryx2Transport F64 → List Bytes → Iceoryx2Transport F64 × Bool
  | transport, [] => (transport, false)
  | transport, line :: lines =>
      if Utf8.valid line then
        match drainLine parse transport line with
        | (next, true) => (next, true)
        | (next, false) => drainRecords parse next lines
      else (transport, false)

def drainLines (parse : Bytes → Option F64) (file : Bytes) (transport : Iceoryx2Transport F64) :
    Iceoryx2Transport F64 × Bool :=
  drainRecords parse transport (records newline (file.drop transport.telemetryOffset))

/-! ## One line -/

/-- The frame of a `T` line. -/
def frameOf (parse : Bytes → Option F64) (line : Bytes) : Option (TelemetryFrame F64) :=
  (parseTelemetryLine parse (trimEnd line)).toOption

/-- The result of an `R` line. -/
def resultOf (line : Bytes) : Option CommandResultEvent :=
  parseResultLine (trimEnd line)

/-- `parse_telemetry_line` panics on the line. -/
def Panics (parse : Bytes → Option F64) (line : Bytes) : Prop :=
  parseTelemetryLine parse (trimEnd line) = .error .capacityOverflow

instance [DecidableEq F64] (parse : Bytes → Option F64) (line : Bytes) :
    Decidable (Panics parse line) :=
  inferInstanceAs (Decidable (_ = _))

/-- The line is behind the offset and kept as what it is. -/
def Iceoryx2Transport.take (transport : Iceoryx2Transport F64) (parse : Bytes → Option F64)
    (line : Bytes) : Iceoryx2Transport F64 where
  telemetryOffset := transport.telemetryOffset + line.length
  pendingTelemetry := transport.pendingTelemetry ++ (frameOf parse line).toList
  pendingResults := transport.pendingResults ++ (resultOf line).toList

/-- A line has one tag. -/
theorem resultOf_of_frameOf {parse : Bytes → Option F64} {line : Bytes}
    {frame : TelemetryFrame F64} (hframe : frameOf parse line = some frame) :
    resultOf line = none := by
  rw [frameOf] at hframe
  cases hparse : parseTelemetryLine parse (trimEnd line) with
  | error refusal => simp [hparse, Except.toOption] at hframe
  | ok frame =>
      obtain ⟨parts, hparts⟩ := tag_of_parseTelemetryLine hparse
      exact parseResultLine_of_tag hparts (by decide)

theorem drainLine_of_panics {parse : Bytes → Option F64} {line : Bytes}
    (hpanics : Panics parse line) (transport : Iceoryx2Transport F64) :
    drainLine parse transport line =
      ({ transport with telemetryOffset := transport.telemetryOffset + line.length }, true) := by
  simp only [drainLine, show parseTelemetryLine parse (trimEnd line) = _ from hpanics]

theorem drainLine_of_not_panics {parse : Bytes → Option F64} {line : Bytes}
    (hpanics : ¬ Panics parse line) (transport : Iceoryx2Transport F64) :
    drainLine parse transport line = (transport.take parse line, false) := by
  cases hparse : parseTelemetryLine parse (trimEnd line) with
  | ok frame =>
      have hframe : frameOf parse line = some frame := by simp [frameOf, hparse, Except.toOption]
      simp [drainLine, hparse, Iceoryx2Transport.take, hframe, resultOf_of_frameOf hframe]
  | error refusal =>
      cases refusal with
      | capacityOverflow => exact absurd hparse hpanics
      | none =>
          have hframe : frameOf parse line = none := by simp [frameOf, hparse, Except.toOption]
          cases hresult : parseResultLine (trimEnd line) with
          | none => simp [drainLine, hparse, Iceoryx2Transport.take, hframe, resultOf, hresult]
          | some result =>
              simp [drainLine, hparse, Iceoryx2Transport.take, hframe, resultOf, hresult]

/-- Take lines in order. -/
def takeAll (parse : Bytes → Option F64) (transport : Iceoryx2Transport F64)
    (lines : List Bytes) : Iceoryx2Transport F64 where
  telemetryOffset := transport.telemetryOffset + lines.flatten.length
  pendingTelemetry := transport.pendingTelemetry ++ lines.filterMap (frameOf parse)
  pendingResults := transport.pendingResults ++ lines.filterMap resultOf

theorem takeAll_nil (parse : Bytes → Option F64) (transport : Iceoryx2Transport F64) :
    takeAll parse transport [] = transport := by
  simp [takeAll]

theorem takeAll_cons (parse : Bytes → Option F64) (transport : Iceoryx2Transport F64)
    (line : Bytes) (lines : List Bytes) :
    takeAll parse transport (line :: lines) =
      takeAll parse (transport.take parse line) lines := by
  cases hframe : frameOf parse line <;> cases hresult : resultOf line <;>
    simp [takeAll, Iceoryx2Transport.take, hframe, hresult, Nat.add_assoc]

/-- A call keeps what the first few lines are, whether it ends, stops or panics. -/
theorem exists_taken (parse : Bytes → Option F64) (transport : Iceoryx2Transport F64)
    (lines : List Bytes) :
    ∃ taken, taken <+: lines ∧
      (drainRecords parse transport lines).1.pendingTelemetry =
        (takeAll parse transport taken).pendingTelemetry ∧
      (drainRecords parse transport lines).1.pendingResults =
        (takeAll parse transport taken).pendingResults := by
  induction lines generalizing transport with
  | nil => exact ⟨[], List.nil_prefix, by simp [drainRecords, takeAll]⟩
  | cons line lines ih =>
      rw [drainRecords]
      split
      · by_cases hpanics : Panics parse line
        · rw [drainLine_of_panics hpanics]
          exact ⟨[], List.nil_prefix, by simp [takeAll]⟩
        · rw [drainLine_of_not_panics hpanics]
          obtain ⟨taken, htaken, hframes, hresults⟩ := ih (transport.take parse line)
          use line :: taken
          rw [takeAll_cons]
          exact ⟨List.cons_prefix_cons.2 ⟨rfl, htaken⟩, hframes, hresults⟩
      · exact ⟨[], List.nil_prefix, by simp [takeAll]⟩

/-! ## What no frame holds -/

theorem newline_not_mem_trimEnd {text line : Bytes} (hline : line ∈ records newline text) :
    newline ∉ trimEnd line := by
  obtain ⟨piece, hpiece, hcases⟩ := exists_of_mem_records hline
  have htrim : trimEnd line = trimEnd piece := by
    rcases hcases with rfl | rfl
    · exact trimEnd_append_newline piece
    · rfl
  rw [htrim]
  exact fun hmem => hpiece ((isPrefix_trimEnd piece).subset hmem)

/-- The strings of a frame that was read off the file have no delimiter. -/
theorem oneField_of_frameOf {parse : Bytes → Option F64} {text line : Bytes}
    (hline : line ∈ records newline text) {frame : TelemetryFrame F64}
    (hframe : frameOf parse line = some frame) : ∀ field ∈ frame.texts, OneField field := by
  intro field hfield
  have hfree := newline_not_mem_trimEnd hline
  cases hparse : parseTelemetryLine parse (trimEnd line) with
  | error refusal => simp [frameOf, hparse, Except.toOption] at hframe
  | ok read =>
      obtain rfl : read = frame := by simpa [frameOf, hparse, Except.toOption] using hframe
      obtain ⟨hbar, hsub⟩ := not_mem_of_mem_splitOn
        (texts_of_parseTelemetryLine hparse field hfield)
      exact ⟨hbar, fun hmem => hfree (hsub hmem)⟩

/-! ## One frame -/

/-- Draining the bytes of one `publish_telemetry` call, which stand behind what
has been read before, adds that one frame, every `f64` the `double` that was
published, or nothing. -/
def NothingFalse (print : F64 → Bytes) (parse : Bytes → Option F64) (frame : SensorFrame)
    (joints : List (JointState F64)) : Prop :=
  ∀ (before : Bytes) (transport : Iceoryx2Transport F64),
    transport.telemetryOffset = before.length →
      let after := (drainLines parse (before ++ publishTelemetry print frame joints) transport).1
      after.pendingResults = transport.pendingResults ∧
        (after.pendingTelemetry = transport.pendingTelemetry ∨
          after.pendingTelemetry =
            transport.pendingTelemetry ++ [receivedFrame id frame joints])

/-- Draining them adds nothing. -/
def NothingAdded (print : Double → Bytes) (parse : Bytes → Option F64)
    (frame : SensorFrame) (joints : List (JointState Double)) : Prop :=
  ∀ (before : Bytes) (transport : Iceoryx2Transport F64),
    transport.telemetryOffset = before.length →
      let after := (drainLines parse (before ++ publishTelemetry print frame joints) transport).1
      after.pendingResults = transport.pendingResults ∧
        after.pendingTelemetry = transport.pendingTelemetry

/-- Every number that is written parses back to itself. -/
def ParseBack (print : F64 → Bytes) (parse : Bytes → Option F64)
    (joints : List (JointState F64)) : Prop :=
  ∀ joint ∈ joints, ∀ number ∈ [joint.position, joint.velocity, joint.load],
    parse (print number) = some number

/-- What goes through as it was published: texts without delimiters and numbers
that parse back. -/
def GoesThrough (print : F64 → Bytes) (parse : Bytes → Option F64) (frame : SensorFrame)
    (joints : List (JointState F64)) : Prop :=
  (∀ text ∈ freeTexts frame joints, OneField text) ∧ ParseBack print parse joints

section Published

variable {print : Double → Bytes} {parse : Bytes → Option F64} {value : Double → F64}
variable {frame : SensorFrame} {joints : List (JointState Double)}

theorem eq_of_mapM_readPayload {sensors : List (Bytes × Bytes × Bytes)}
    {payloads : List SensorPayload} (hread : sensors.mapM readPayload = .ok payloads) :
    payloads = sensors.map receivedPayload := by
  induction sensors generalizing payloads with
  | nil => exact (Except.ok.inj hread).symm
  | cons sensor sensors ih =>
      rw [List.mapM_cons, bind_eq_ok_iff] at hread
      obtain ⟨payload, hpayload, hread⟩ := hread
      rw [bind_eq_ok_iff] at hread
      obtain ⟨others, hothers, hread⟩ := hread
      obtain rfl := Except.ok.inj hread
      rw [readPayload] at hpayload
      split_ifs at hpayload
      rw [← Except.ok.inj hpayload, ih hothers, List.map_cons]

/-- Without delimiters in the texts no other frame is read. -/
theorem eq_of_parseTelemetryLine (hprints : Prints print parse value)
    (hfree : ∀ text ∈ freeTexts frame joints, OneField text) {read : TelemetryFrame F64}
    (hread : parseTelemetryLine parse (telemetryLine print frame joints) = .ok read) :
    read = receivedFrame value frame joints := by
  rw [parseTelemetryLine_eq hprints hfree] at hread
  simp only [bind_eq_ok_iff] at hread
  obtain ⟨-, -, -, -, -, -, -, -, payloads, hpayloads, hread⟩ := hread
  rw [← Except.ok.inj hread, eq_of_mapM_readPayload hpayloads]
  rfl

/-- The published bytes are one line. -/
theorem records_publishTelemetry (hprints : Prints print parse value)
    (hfree : ∀ text ∈ freeTexts frame joints, OneField text) (before : Bytes) :
    records newline ((before ++ publishTelemetry print frame joints).drop before.length) =
      [telemetryLine print frame joints ++ [newline]] := by
  rw [List.drop_left, publishTelemetry_eq_line,
    records_append_delim (newline_not_mem_telemetryLine hprints hfree), records_nil]

/-- Without delimiters in the texts the frame as it was printed is delivered, or nothing. -/
theorem drainLines_of_oneField (hprints : Prints print parse value)
    (hfree : ∀ text ∈ freeTexts frame joints, OneField text) {before : Bytes}
    {transport : Iceoryx2Transport F64} (hoffset : transport.telemetryOffset = before.length) :
    let after := (drainLines parse (before ++ publishTelemetry print frame joints) transport).1
    after.pendingResults = transport.pendingResults ∧
      (after.pendingTelemetry = transport.pendingTelemetry ∨
        after.pendingTelemetry =
          transport.pendingTelemetry ++ [receivedFrame value frame joints]) := by
  rw [drainLines, hoffset, records_publishTelemetry hprints hfree, drainRecords]
  split
  · by_cases hpanics : Panics parse (telemetryLine print frame joints ++ [newline])
    · rw [drainLine_of_panics hpanics]
      exact ⟨rfl, .inl rfl⟩
    · rw [drainLine_of_not_panics hpanics]
      have hline : trimEnd (telemetryLine print frame joints ++ [newline]) =
          telemetryLine print frame joints := by
        rw [← publishTelemetry_eq_line, trimEnd_publishTelemetry]
      have hresult : resultOf (telemetryLine print frame joints ++ [newline]) = none := by
        rw [resultOf, hline]
        exact parseResultLine_of_tag (splitOn_telemetryLine hprints hfree) (by decide)
      cases hparse : parseTelemetryLine parse (telemetryLine print frame joints) with
      | error refusal =>
          simp [drainRecords, Iceoryx2Transport.take, frameOf, hline, hparse, hresult,
            Except.toOption]
      | ok read =>
          simp [drainRecords, Iceoryx2Transport.take, frameOf, hline, hparse, hresult,
            Except.toOption, eq_of_parseTelemetryLine hprints hfree hparse]
  · exact ⟨rfl, .inl rfl⟩

theorem texts_receivedFrame (value : Double → F64) (frame : SensorFrame)
    (joints : List (JointState Double)) :
    (receivedFrame value frame joints).texts = freeTexts frame joints := by
  simp only [TelemetryFrame.texts, receivedFrame, freeTexts, List.flatMap_map]
  rfl

end Published

section Exact

variable {print : F64 → Bytes} {parse : Bytes → Option F64} {value : F64 → F64}
variable {frame : SensorFrame} {joints : List (JointState F64)}

/-- Numbers that parse back are received as they were published. -/
theorem receivedFrame_eq_iff (hprints : Prints print parse value) (frame : SensorFrame) :
    receivedFrame value frame joints = receivedFrame id frame joints ↔
      ParseBack print parse joints := by
  have hjoint (joint : JointState F64) : receivedJoint value joint = receivedJoint id joint ↔
      ∀ number ∈ [joint.position, joint.velocity, joint.load],
        parse (print number) = some number := by
    simp [receivedJoint, hprints.parsed]
  simp only [ParseBack, ← hjoint]
  simp [receivedFrame, List.map_inj_left]

theorem nothingFalse_of_goesThrough (hprints : Prints print parse value)
    (hthrough : GoesThrough print parse frame joints) :
    NothingFalse print parse frame joints := by
  intro before transport hoffset
  rw [← (receivedFrame_eq_iff hprints frame).2 hthrough.2]
  exact drainLines_of_oneField hprints hthrough.1 hoffset

/-- A delivered frame has texts without delimiters. -/
theorem oneField_of_delivered {before : Bytes} {transport : Iceoryx2Transport F64}
    (hframe : (drainLines parse (before ++ publishTelemetry print frame joints)
      transport).1.pendingTelemetry =
        transport.pendingTelemetry ++ [receivedFrame id frame joints]) :
    ∀ text ∈ freeTexts frame joints, OneField text := by
  obtain ⟨taken, htaken, hadded, -⟩ := exists_taken parse transport
    (records newline
      ((before ++ publishTelemetry print frame joints).drop transport.telemetryOffset))
  have hsame := List.append_cancel_left (hframe.symm.trans hadded)
  have hmem : receivedFrame id frame joints ∈ taken.filterMap (frameOf parse) := by
    rw [← hsame]
    exact List.mem_singleton_self _
  obtain ⟨line, hline, hread⟩ := List.mem_filterMap.1 hmem
  rw [← texts_receivedFrame id]
  exact oneField_of_frameOf (htaken.subset hline) hread

/-- The frame as it was published is delivered only where it goes through. -/
theorem goesThrough_of_delivered (hprints : Prints print parse value) {before : Bytes}
    {transport : Iceoryx2Transport F64} (hoffset : transport.telemetryOffset = before.length)
    (hframe : (drainLines parse (before ++ publishTelemetry print frame joints)
      transport).1.pendingTelemetry =
        transport.pendingTelemetry ++ [receivedFrame id frame joints]) :
    GoesThrough print parse frame joints := by
  have hfree := oneField_of_delivered hframe
  refine ⟨hfree, (receivedFrame_eq_iff hprints frame).1 ?_⟩
  rcases (drainLines_of_oneField hprints hfree hoffset).2 with hnone | hprinted
  · rw [hframe] at hnone
    exact absurd hnone (by simp)
  · exact (List.singleton_inj.1 (List.append_cancel_left (hframe.symm.trans hprinted))).symm

/-- Else nothing false is delivered only where nothing is delivered at all. -/
theorem nothingFalse_iff_nothingAdded (hprints : Prints print parse value)
    (hthrough : ¬ GoesThrough print parse frame joints) :
    NothingFalse print parse frame joints ↔ NothingAdded print parse frame joints := by
  constructor
  · intro hnothing before transport hoffset
    obtain ⟨hresults, hframes⟩ := hnothing before transport hoffset
    exact ⟨hresults, hframes.resolve_right fun hframe =>
      hthrough (goesThrough_of_delivered hprints hoffset hframe)⟩
  · intro hnothing before transport hoffset
    obtain ⟨hresults, hframes⟩ := hnothing before transport hoffset
    exact ⟨hresults, .inl hframes⟩

/-- Nothing false is delivered if no text holds a delimiter and every number
parses back, and else only where nothing is delivered at all. -/
theorem nothingFalse_of_texts (hprints : Prints print parse value) :
    (GoesThrough print parse frame joints → NothingFalse print parse frame joints) ∧
    (¬ GoesThrough print parse frame joints →
      (NothingFalse print parse frame joints ↔ NothingAdded print parse frame joints)) :=
  ⟨nothingFalse_of_goesThrough hprints, nothingFalse_iff_nothingAdded hprints⟩

end Exact

private def scan (id : Bytes) : SensorFrame where
  timestampNs := 42
  ids := [id]
  types := [ascii "lidar"]
  payloads := [ascii "0.5"]

private def turning : JointState UInt64 where
  id := ascii "fl"
  name := ascii "front left"
  position := 3
  velocity := 2
  load := 1

theorem scan_nothingFalse :
    NothingFalse printWhole parseWhole (scan (ascii "front")) [turning] := by
  refine (nothingFalse_of_texts prints_whole).1 ⟨?_, ?_⟩
  · decide +kernel
  · exact fun _ _ number _ => prints_whole.parsed number

/-- A sensor whose id goes on in a second line is received as a command result. -/
theorem forged_result :
    (∀ text ∈ freeTexts (scan (ascii "front\nR|7|5|0|ok")) ([] : List (JointState UInt64)),
      Utf8.valid text = true) ∧
    (drainLines parseWhole (publishTelemetry printWhole (scan (ascii "front\nR|7|5|0|ok")) [])
      Iceoryx2Transport.new).1.pendingResults =
        [{ commandId := 7
           result := { status := .succeeded, rejectReason := .none, message := ascii "ok" } }] ∧
    ¬ NothingFalse printWhole parseWhole (scan (ascii "front\nR|7|5|0|ok")) [] := by
  have hforged : (drainLines parseWhole
      (publishTelemetry printWhole (scan (ascii "front\nR|7|5|0|ok")) [])
      Iceoryx2Transport.new).1.pendingResults =
        [{ commandId := 7
           result := { status := .succeeded, rejectReason := .none, message := ascii "ok" } }] := by
    decide +kernel
  refine ⟨by decide +kernel, hforged, fun hnothing => ?_⟩
  have hresults := (hnothing [] Iceoryx2Transport.new rfl).1
  simp only [List.nil_append, hforged] at hresults
  exact absurd hresults (List.cons_ne_nil _ _)

end ArcravenUgv.Drain
