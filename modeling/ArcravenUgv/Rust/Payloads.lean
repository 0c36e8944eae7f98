import ArcravenUgv.Rust.BadLines

/-!
# Payload bytes and the frames they belong to

Payloads travel as base64, so any bytes can; the client then asks for UTF-8 and
gives up the whole frame where one payload is not.
-/

namespace ArcravenUgv.Payloads

open ArcravenUgv.Command
open ArcravenUgv.Decimal
open ArcravenUgv.Delimited
open ArcravenUgv.CommandLine
open ArcravenUgv.Bridge
open ArcravenUgv.RustText
open ArcravenUgv.RustRecords
open ArcravenUgv.RoundTrip
open ArcravenUgv.Drain
open ArcravenUgv.BadLines

variable {Double F64 : Type}

/-- Draining the bytes of one `publish_telemetry` call, which stand behind what
has been read before, adds this frame and nothing else. -/
def Receives (print : Double → Bytes) (parse : Bytes → Option F64) (frame : SensorFrame)
    (joints : List (JointState Double)) (read : TelemetryFrame F64) : Prop :=
  ∀ (before : Bytes) (transport : Iceoryx2Transport F64),
    transport.telemetryOffset = before.length →
      let after := (drainLines parse (before ++ publishTelemetry print frame joints) transport).1
      after.pendingTelemetry = transport.pendingTelemetry ++ [read] ∧
        after.pendingResults = transport.pendingResults

/-- The frames differ in the bytes of their payloads at most. -/
structure Alike (left right : SensorFrame) : Prop where
  timestampNs : left.timestampNs = right.timestampNs
  ids : left.ids = right.ids
  types : left.types = right.types
  payloads : left.payloads.length = right.payloads.length

/-- What two published frames that are alike have to do with each other. -/
structure PayloadsApart (print : Double → Bytes) (parse : Bytes → Option F64)
    (value : Double → F64) (left right : SensorFrame) (joints : List (JointState Double)) :
    Prop where
  both_or_neither : (∃ read, Receives print parse left joints read) ↔
    ∃ read, Receives print parse right joints read
  published : ∀ frame ∈ [left, right], ∀ read, Receives print parse frame joints read →
    read = receivedFrame value frame joints
  same_context : ∀ readLeft readRight, Receives print parse left joints readLeft →
    Receives print parse right joints readRight →
      readLeft.timestampNs = readRight.timestampNs ∧ readLeft.joints = readRight.joints ∧
        readLeft.payloads.map (fun payload => (payload.id, payload.sensorType)) =
          readRight.payloads.map fun payload => (payload.id, payload.sensorType)
  nothing_lost : ∀ frame ∈ [left, right], ∀ other, Alike frame other →
    (∃ read, Receives print parse other joints read) →
      ∃ read, Receives print parse frame joints read

/-- The strings that may stand in the line of a frame. -/
def texts (frame : SensorFrame) (joints : List (JointState Double)) : List Bytes :=
  joints.flatMap (fun joint => [joint.id, joint.name]) ++ frame.ids ++ frame.types

/-- The counts fit into the client's vectors. -/
def Fits (frame : SensorFrame) (joints : List (JointState Double)) : Prop :=
  joints.length * 72 < 2 ^ 63 ∧ (sensorFields frame).length * 72 < 2 ^ 63

instance (frame : SensorFrame) (joints : List (JointState Double)) :
    Decidable (Fits frame joints) :=
  inferInstanceAs (Decidable (_ ∧ _))

def Utf8Payloads (frame : SensorFrame) : Prop :=
  ∀ sensor ∈ sensorFields frame, Utf8.valid sensor.2.2 = true

instance (frame : SensorFrame) : Decidable (Utf8Payloads frame) :=
  List.decidableBAll (fun sensor : Bytes × Bytes × Bytes => Utf8.valid sensor.2.2 = true)
    (sensorFields frame)

/-! ## Frames that are alike -/

section Alike

variable {left right : SensorFrame} {joints : List (JointState Double)}

theorem Alike.refl (frame : SensorFrame) : Alike frame frame :=
  ⟨rfl, rfl, rfl, rfl⟩

theorem Alike.symm (halike : Alike left right) : Alike right left :=
  ⟨halike.timestampNs.symm, halike.ids.symm, halike.types.symm, halike.payloads.symm⟩

theorem Alike.texts (halike : Alike left right) : texts left joints = texts right joints := by
  rw [Payloads.texts, halike.ids, halike.types, Payloads.texts]

theorem Alike.fits (halike : Alike left right) : Fits left joints ↔ Fits right joints := by
  rw [Fits, Fits, length_sensorFields, length_sensorFields, halike.ids, halike.types,
    halike.payloads]

/-- Without their payloads the written sensors are the same. -/
theorem Alike.context (halike : Alike left right) :
    (sensorFields left).map (fun sensor => (sensor.1, sensor.2.1)) =
      (sensorFields right).map fun sensor => (sensor.1, sensor.2.1) := by
  apply List.ext_getElem
  · simp [length_sensorFields, halike.ids, halike.types, halike.payloads]
  · intro index _ _
    simp [sensorFields, halike.ids, halike.types]

theorem freeTexts_subset (frame : SensorFrame) (joints : List (JointState Double)) :
    freeTexts frame joints ⊆ texts frame joints := by
  intro text htext
  rcases List.mem_append.1 htext with hjoint | hsensor
  · exact List.mem_append_left _ (List.mem_append_left _ hjoint)
  · obtain ⟨sensor, hmem, hcases⟩ := List.mem_flatMap.1 hsensor
    obtain ⟨hid, hrest⟩ := List.of_mem_zip hmem
    have htype := (List.of_mem_zip hrest).1
    rcases List.mem_pair.1 hcases with rfl | rfl
    · exact List.mem_append_left _ (List.mem_append_right _ hid)
    · exact List.mem_append_right _ htype

end Alike

/-! ## What is received -/

section Received

variable {print : Double → Bytes} {parse : Bytes → Option F64} {value : Double → F64}
variable {frame : SensorFrame} {joints : List (JointState Double)}

theorem mapM_readPayload_error {sensors : List (Bytes × Bytes × Bytes)}
    (hinvalid : ¬ ∀ sensor ∈ sensors, Utf8.valid sensor.2.2 = true) :
    sensors.mapM readPayload = .error .none := by
  induction sensors with
  | nil => simp at hinvalid
  | cons sensor sensors ih =>
      rw [List.mapM_cons, readPayload]
      split_ifs with hvalid
      · rw [ok_bind, ih fun hall => hinvalid (List.forall_mem_cons.2 ⟨hvalid, hall⟩)]
        rfl
      · rfl

/-- What becomes of the line of a frame, by its counts and its payloads. -/
theorem parseTelemetryLine_eq_ok_iff (hprints : Prints print parse value)
    (hfree : ∀ text ∈ freeTexts frame joints, OneField text) (read : TelemetryFrame F64) :
    parseTelemetryLine parse (telemetryLine print frame joints) = .ok read ↔
      Fits frame joints ∧ Utf8Payloads frame ∧ read = receivedFrame value frame joints := by
  constructor
  · intro hread
    have hsame := eq_of_parseTelemetryLine hprints hfree hread
    rw [parseTelemetryLine_eq hprints hfree] at hread
    simp only [bind_eq_ok_iff] at hread
    obtain ⟨_, -, _, hjoints, _, -, _, hsensors, payloads, hpayloads, -⟩ := hread
    refine ⟨⟨withCapacity_eq_ok_iff.1 hjoints, withCapacity_eq_ok_iff.1 hsensors⟩, ?_, hsame⟩
    by_contra hinvalid
    rw [mapM_readPayload_error hinvalid] at hpayloads
    cases hpayloads
  · rintro ⟨⟨hjoints, hsensors⟩, hpayloads, rfl⟩
    rw [parseTelemetryLine_eq hprints hfree, parseUnsigned_decimal, if_pos (by omega),
      parseUnsigned_decimal, if_pos (by omega), withCapacity_eq_ok_iff.2 hjoints,
      withCapacity_eq_ok_iff.2 hsensors, mapM_readPayload hpayloads]
    rfl

theorem frameOf_publishTelemetry_iff (read : TelemetryFrame F64) :
    frameOf parse (telemetryLine print frame joints ++ [newline]) = some read ↔
      parseTelemetryLine parse (telemetryLine print frame joints) = .ok read := by
  rw [frameOf, ← publishTelemetry_eq_line, trimEnd_publishTelemetry]
  cases parseTelemetryLine parse (telemetryLine print frame joints) <;> simp [Except.toOption]

theorem drainLines_telemetry (hprints : Prints print parse value)
    (htexts : ∀ text ∈ texts frame joints, OneField text ∧ Utf8.valid text = true)
    {before : Bytes} {transport : Iceoryx2Transport F64}
    (hoffset : transport.telemetryOffset = before.length) :
    let after := (drainLines parse (before ++ publishTelemetry print frame joints) transport).1
    after.pendingTelemetry = transport.pendingTelemetry ++
        (frameOf parse (telemetryLine print frame joints ++ [newline])).toList ∧
      after.pendingResults = transport.pendingResults := by
  have hfree : ∀ text ∈ freeTexts frame joints, OneField text ∧ Utf8.valid text = true :=
    fun text htext => htexts text (freeTexts_subset frame joints htext)
  have hvalid : Utf8.valid (telemetryLine print frame joints ++ [newline]) = true := by
    rw [Utf8.valid_append (valid_telemetryLine hprints fun text htext => (hfree text htext).2)]
    rfl
  have hresult : resultOf (telemetryLine print frame joints ++ [newline]) = none := by
    rw [resultOf, ← publishTelemetry_eq_line, trimEnd_publishTelemetry]
    exact parseResultLine_of_tag
      (splitOn_telemetryLine hprints fun text htext => (hfree text htext).1) (by decide)
  rw [drainLines, hoffset,
    records_publishTelemetry hprints (fun text htext => (hfree text htext).1) before,
    drainRecords, if_pos hvalid]
  by_cases hpanics : Panics parse (telemetryLine print frame joints ++ [newline])
  · have hframe : frameOf parse (telemetryLine print frame joints ++ [newline]) = none := by
      rw [frameOf, show parseTelemetryLine parse _ = _ from hpanics]
      rfl
    rw [drainLine_of_panics hpanics, hframe]
    simp
  · rw [drainLine_of_not_panics hpanics]
    simp [drainRecords, Iceoryx2Transport.take, hresult]

theorem receives_iff (hprints : Prints print parse value)
    (htexts : ∀ text ∈ texts frame joints, OneField text ∧ Utf8.valid text = true)
    (read : TelemetryFrame F64) :
    Receives print parse frame joints read ↔
      Fits frame joints ∧ Utf8Payloads frame ∧ read = receivedFrame value frame joints := by
  rw [← parseTelemetryLine_eq_ok_iff hprints
    (fun text htext => (htexts text (freeTexts_subset frame joints htext)).1),
    ← frameOf_publishTelemetry_iff]
  constructor
  · intro hreceives
    have hframes := (hreceives [] Iceoryx2Transport.new rfl).1
    rw [(drainLines_telemetry hprints htexts rfl).1] at hframes
    exact Option.toList_eq_singleton_iff.1 (List.append_cancel_left hframes)
  · intro hframe before transport hoffset
    obtain ⟨hframes, hresults⟩ := drainLines_telemetry hprints htexts hoffset
    rw [hframe] at hframes
    exact ⟨hframes, hresults⟩

theorem exists_receives_iff (hprints : Prints print parse value)
    (htexts : ∀ text ∈ texts frame joints, OneField text ∧ Utf8.valid text = true) :
    (∃ read, Receives print parse frame joints read) ↔
      Fits frame joints ∧ Utf8Payloads frame := by
  simp only [receives_iff hprints htexts]
  constructor
  · rintro ⟨_, hfits, hpayloads, -⟩
    exact ⟨hfits, hpayloads⟩
  · rintro ⟨hfits, hpayloads⟩
    exact ⟨_, hfits, hpayloads, rfl⟩

end Received

/-! ## Two runs -/

/-- The frame with every payload empty. -/
def withoutPayloads (frame : SensorFrame) : SensorFrame :=
  { frame with payloads := frame.payloads.map fun _ => [] }

theorem alike_withoutPayloads (frame : SensorFrame) : Alike frame (withoutPayloads frame) :=
  ⟨rfl, rfl, rfl, by simp [withoutPayloads]⟩

theorem utf8Payloads_withoutPayloads (frame : SensorFrame) :
    Utf8Payloads (withoutPayloads frame) := by
  intro sensor hsensor
  have hpayload := (List.of_mem_zip (List.of_mem_zip hsensor).2).2
  obtain ⟨_, -, hempty⟩ := List.mem_map.1 hpayload
  rw [← hempty]
  rfl

section TwoRuns

variable {print : Double → Bytes} {parse : Bytes → Option F64} {value : Double → F64}
variable {left right : SensorFrame} {joints : List (JointState Double)}

/-- A frame that would be received with other payloads has to be received. -/
theorem utf8Payloads_of_nothingLost (hprints : Prints print parse value)
    (htexts : ∀ text ∈ texts left joints, OneField text ∧ Utf8.valid text = true)
    (hfits : Fits left joints)
    (hlost : ∀ other, Alike left other → (∃ read, Receives print parse other joints read) →
      ∃ read, Receives print parse left joints read) : Utf8Payloads left := by
  have halike := alike_withoutPayloads left
  have hreceived : ∃ read, Receives print parse (withoutPayloads left) joints read := by
    apply (exists_receives_iff hprints (halike.texts ▸ htexts)).2
    exact ⟨halike.fits.1 hfits, utf8Payloads_withoutPayloads left⟩
  exact ((exists_receives_iff hprints htexts).1 (hlost _ halike hreceived)).2

/-- Two frames that are alike are received alike exactly when their written
payloads are UTF-8, or when there are too many joints or sensors for either. -/
theorem payloadsApart_iff (hprints : Prints print parse value)
    (htexts : ∀ text ∈ texts left joints, OneField text ∧ Utf8.valid text = true)
    (halike : Alike left right) :
    PayloadsApart print parse value left right joints ↔
      (Fits left joints → Utf8Payloads left ∧ Utf8Payloads right) := by
  have htextsRight : ∀ text ∈ texts right joints, OneField text ∧ Utf8.valid text = true :=
    halike.texts ▸ htexts
  constructor
  · intro happart hfits
    constructor
    · exact utf8Payloads_of_nothingLost hprints htexts hfits (happart.nothing_lost left (by simp))
    · exact utf8Payloads_of_nothingLost hprints htextsRight (halike.fits.1 hfits)
        (happart.nothing_lost right (by simp))
  · intro hpayloads
    have hframe : ∀ frame ∈ [left, right], Alike left frame ∧
        (∀ text ∈ texts frame joints, OneField text ∧ Utf8.valid text = true) ∧
        (Fits left joints → Utf8Payloads frame) := by
      intro frame hframe
      rcases List.mem_pair.1 hframe with rfl | rfl
      · exact ⟨.refl _, htexts, fun hfits => (hpayloads hfits).1⟩
      · exact ⟨halike, htextsRight, fun hfits => (hpayloads hfits).2⟩
    constructor
    · rw [exists_receives_iff hprints htexts, exists_receives_iff hprints htextsRight,
        ← halike.fits]
      exact and_congr_right fun hfits => iff_of_true (hpayloads hfits).1 (hpayloads hfits).2
    · intro frame hmem read hreceives
      exact ((receives_iff hprints (hframe frame hmem).2.1 read).1 hreceives).2.2
    · intro readLeft readRight hleft hright
      obtain ⟨-, -, rfl⟩ := (receives_iff hprints htexts readLeft).1 hleft
      obtain ⟨-, -, rfl⟩ := (receives_iff hprints htextsRight readRight).1 hright
      refine ⟨halike.timestampNs, rfl, ?_⟩
      simp only [receivedFrame, List.map_map]
      exact halike.context
    · intro frame hmem other hother hreceived
      obtain ⟨hleft, htextsFrame, hutf8⟩ := hframe frame hmem
      have hfits : Fits frame joints :=
        hother.fits.2 ((exists_receives_iff hprints (hother.texts ▸ htextsFrame)).1 hreceived).1
      exact (exists_receives_iff hprints htextsFrame).2 ⟨hfits, hutf8 (hleft.fits.2 hfits)⟩

end TwoRuns

/-- A front and a rear scanner with these bytes from the rear one. -/
private def scans (rear : Bytes) : SensorFrame where
  timestampNs := 42
  ids := [ascii "front", ascii "rear"]
  types := [ascii "lidar", ascii "lidar"]
  payloads := [ascii "0.5", rear]

private theorem alike_scans (left right : Bytes) : Alike (scans left) (scans right) :=
  ⟨rfl, rfl, rfl, rfl⟩

private theorem texts_scans (rear : Bytes) :
    ∀ text ∈ texts (scans rear) ([] : List (JointState UInt64)),
      OneField text ∧ Utf8.valid text = true := by
  simp only [texts, scans, List.flatMap_nil, List.nil_append, List.cons_append,
    List.forall_mem_cons]
  decide +kernel

theorem scans_apart :
    PayloadsApart printWhole parseWhole id (scans (ascii "1.5")) (scans []) [] := by
  apply (payloadsApart_iff prints_whole (texts_scans _) (alike_scans _ _)).2
  intro _
  constructor
  · decide +kernel
  · decide +kernel

/-- One byte of the rear scanner takes the front one away as well. -/
theorem scans_lost :
    (drainLines parseWhole (publishTelemetry printWhole (scans [255]) [])
      Iceoryx2Transport.new).1.pendingTelemetry = [] ∧
    ¬ PayloadsApart printWhole parseWhole id (scans (ascii "1.5")) (scans [255]) [] := by
  refine ⟨by decide +kernel, fun happart => ?_⟩
  have hleft : ∃ read, Receives printWhole parseWhole (scans (ascii "1.5")) [] read := by
    apply (exists_receives_iff prints_whole (texts_scans _)).2
    exact ⟨by decide +kernel, by decide +kernel⟩
  have hright := happart.both_or_neither.1 hleft
  have hutf8 := ((exists_receives_iff prints_whole (texts_scans _)).1 hright).2
  exact absurd hutf8 (by decide +kernel)

end ArcravenUgv.Payloads
