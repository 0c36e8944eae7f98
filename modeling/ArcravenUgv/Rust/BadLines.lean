import ArcravenUgv.Rust.Drain

/-!
# Lines that stop the client

A count that `Vec::with_capacity` cannot serve panics before any field behind it
is looked at, and `drain_lines` never gets past a line that is not UTF-8.
-/

namespace ArcravenUgv.BadLines

open ArcravenUgv.Command
open ArcravenUgv.Decimal
open ArcravenUgv.Delimited
open ArcravenUgv.CommandLine
open ArcravenUgv.RustText
open ArcravenUgv.RustRecords
open ArcravenUgv.RoundTrip
open ArcravenUgv.Drain

variable {F64 : Type}

/-! ## Where a panic comes from -/

theorem bind_eq_overflow_iff {A B : Type} {first : Except Refusal A}
    {rest : A → Except Refusal B} :
    (first >>= rest) = .error .capacityOverflow ↔
      first = .error .capacityOverflow ∨
        ∃ value, first = .ok value ∧ rest value = .error .capacityOverflow := by
  cases first with
  | error refusal => simp
  | ok value => simp

theorem orNone_ne_overflow {A : Type} (option : Option A) :
    orNone option ≠ .error .capacityOverflow := by
  cases option <;> simp

theorem withCapacity_eq_overflow_iff {count : ℕ} :
    withCapacity count = .error .capacityOverflow ↔ 2 ^ 63 ≤ count * 72 := by
  rw [withCapacity]
  split_ifs with hlarge
  · exact iff_of_true rfl hlarge
  · exact iff_of_false (by simp) hlarge

theorem withCapacity_eq_ok_iff {count : ℕ} :
    withCapacity count = .ok () ↔ count * 72 < 2 ^ 63 := by
  rw [withCapacity]
  split_ifs with hlarge
  · exact iff_of_false (by simp) (not_lt.2 hlarge)
  · exact iff_of_true rfl (not_le.1 hlarge)

theorem readJoint_ne_overflow (parse : Bytes → Option F64) (parts : List Bytes) :
    readJoint parse parts ≠ .error .capacityOverflow := by
  simp [readJoint, bind_eq_overflow_iff, orNone_ne_overflow]

theorem readSensor_ne_overflow (parts : List Bytes) :
    readSensor parts ≠ .error .capacityOverflow := by
  simp [readSensor, bind_eq_overflow_iff, orNone_ne_overflow]

theorem repeated_ne_overflow {A : Type} {body : List Bytes → Except Refusal (A × List Bytes)}
    (hbody : ∀ parts, body parts ≠ .error .capacityOverflow) (count : ℕ) (parts : List Bytes) :
    repeated body count parts ≠ .error .capacityOverflow := by
  induction count generalizing parts with
  | zero => simp [repeated]
  | succ count ih => simp [repeated, bind_eq_overflow_iff, hbody, ih]

/-! ## The joints that are read first -/

/-- An id, a name and three numbers. -/
def JointFields (parse : Bytes → Option F64) (fields : List Bytes) : Prop :=
  ∃ id name position velocity load, fields = [id, name, position, velocity, load] ∧
    (parse position).isSome ∧ (parse velocity).isSome ∧ (parse load).isSome

theorem exists_readJoint_iff {parse : Bytes → Option F64} (parts rest : List Bytes) :
    (∃ joint, readJoint parse parts = .ok (joint, rest)) ↔
      ∃ fields, JointFields parse fields ∧ parts = fields ++ rest := by
  constructor
  · rintro ⟨joint, hread⟩
    simp only [readJoint, bind_eq_ok_iff, orNone_eq_ok_iff, Prod.exists,
      next_eq_some_iff] at hread
    obtain ⟨id, _, rfl, name, _, rfl, position, _, rfl, _, hposition, velocity, _, rfl, _,
      hvelocity, load, _, rfl, _, hload, hread⟩ := hread
    obtain ⟨-, rfl⟩ := Prod.mk.inj (Except.ok.inj hread)
    refine ⟨[id, name, position, velocity, load],
      ⟨id, name, position, velocity, load, rfl, ?_, ?_, ?_⟩, rfl⟩
    · rw [hposition, Option.isSome_some]
    · rw [hvelocity, Option.isSome_some]
    · rw [hload, Option.isSome_some]
  · rintro ⟨_, ⟨id, name, position, velocity, load, rfl, hposition, hvelocity, hload⟩, rfl⟩
    obtain ⟨positionValue, hposition⟩ := Option.isSome_iff_exists.1 hposition
    obtain ⟨velocityValue, hvelocity⟩ := Option.isSome_iff_exists.1 hvelocity
    obtain ⟨loadValue, hload⟩ := Option.isSome_iff_exists.1 hload
    exact ⟨⟨id, name, positionValue, velocityValue, loadValue⟩,
      by simp [readJoint, hposition, hvelocity, hload]⟩

/-- A loop succeeds on as many groups of parts, each of which its body takes. -/
theorem exists_repeated_iff {A : Type} {body : List Bytes → Except Refusal (A × List Bytes)}
    {takes : List Bytes → Prop}
    (hbody : ∀ parts rest, (∃ one, body parts = .ok (one, rest)) ↔
      ∃ fields, takes fields ∧ parts = fields ++ rest)
    (count : ℕ) (parts rest : List Bytes) :
    (∃ all, repeated body count parts = .ok (all, rest)) ↔
      ∃ groups : List (List Bytes), groups.length = count ∧ (∀ fields ∈ groups, takes fields) ∧
        parts = groups.flatten ++ rest := by
  induction count generalizing parts with
  | zero =>
      constructor
      · rintro ⟨all, hread⟩
        obtain ⟨-, rfl⟩ := Prod.mk.inj (Except.ok.inj hread)
        exact ⟨[], rfl, by simp, rfl⟩
      · rintro ⟨groups, hlength, -, rfl⟩
        rw [List.length_eq_zero_iff.1 hlength]
        exact ⟨[], rfl⟩
  | succ count ih =>
      constructor
      · rintro ⟨all, hread⟩
        simp only [repeated, bind_eq_ok_iff, Prod.exists] at hread
        obtain ⟨one, middle, hone, others, last, hothers, hread⟩ := hread
        obtain ⟨-, rfl⟩ := Prod.mk.inj (Except.ok.inj hread)
        obtain ⟨fields, hfields, rfl⟩ := (hbody parts middle).1 ⟨one, hone⟩
        obtain ⟨groups, rfl, hgroups, rfl⟩ := (ih middle).1 ⟨others, hothers⟩
        refine ⟨fields :: groups, rfl, ?_, ?_⟩
        · exact List.forall_mem_cons.2 ⟨hfields, hgroups⟩
        · rw [List.flatten_cons, List.append_assoc]
      · rintro ⟨groups, hlength, hgroups, rfl⟩
        obtain ⟨fields, groups, rfl⟩ := List.exists_cons_of_length_eq_add_one hlength
        obtain ⟨hfields, hothers⟩ := List.forall_mem_cons.1 hgroups
        have hcount : groups.length = count := by simpa using hlength
        obtain ⟨one, hone⟩ := (hbody _ (groups.flatten ++ rest)).2 ⟨fields, hfields, rfl⟩
        obtain ⟨others, hread⟩ := (ih _).2 ⟨groups, hcount, hothers, rfl⟩
        refine ⟨one :: others, ?_⟩
        rw [List.flatten_cons, List.append_assoc, repeated, hone]
        simp only [ok_bind, hread]

/-! ## The lines that panic -/

/-- A count for which there is no capacity. -/
def TooMany (text : Bytes) : Prop :=
  ∃ count, parseUnsigned 64 text = some count ∧ 2 ^ 63 ≤ count * 72

/-- A `T` line announces too many joints, or as many joints as follow and then
too many sensors. -/
inductive Oversized (parse : Bytes → Option F64) : List Bytes → Prop
  | joints {timestamp count : Bytes} {rest : List Bytes}
      (htimestamp : (parseUnsigned 64 timestamp).isSome) (hcount : TooMany count) :
      Oversized parse (ascii "T" :: timestamp :: count :: rest)
  | sensors {timestamp count sensorCount : Bytes} {joints : List (List Bytes)}
      {rest : List Bytes} (htimestamp : (parseUnsigned 64 timestamp).isSome)
      (hcount : parseUnsigned 64 count = some joints.length)
      (hroom : joints.length * 72 < 2 ^ 63) (hjoints : ∀ fields ∈ joints, JointFields parse fields)
      (hsensorCount : TooMany sensorCount) :
      Oversized parse
        (ascii "T" :: timestamp :: count :: (joints.flatten ++ sensorCount :: rest))

theorem oversized_of_overflow {parse : Bytes → Option F64} {line : Bytes}
    (hpanics : parseTelemetryLine parse line = .error .capacityOverflow) :
    Oversized parse (line.splitOn bar) := by
  simp only [parseTelemetryLine, bind_eq_overflow_iff, orNone_ne_overflow, false_or,
    orNone_eq_ok_iff, Prod.exists, next_eq_some_iff] at hpanics
  obtain ⟨tag, parts, hsplit, hpanics⟩ := hpanics
  split_ifs at hpanics with htag
  · cases hpanics
  · simp only [bind_eq_overflow_iff, orNone_ne_overflow, false_or, or_false, and_false,
      exists_false, orNone_eq_ok_iff, Prod.exists, next_eq_some_iff,
      withCapacity_eq_overflow_iff, repeated_ne_overflow (readJoint_ne_overflow parse),
      repeated_ne_overflow readSensor_ne_overflow, reduceCtorEq] at hpanics
    obtain ⟨timestamp, _, rfl, _, htimestamp, count, rest, rfl, number, hnumber, hcases⟩ := hpanics
    have hread : (parseUnsigned 64 timestamp).isSome := by rw [htimestamp, Option.isSome_some]
    rw [hsplit, not_not.1 htag]
    rcases hcases with hlarge | ⟨_, hroom, joints, _, hjoints, sensorCount, _, rfl, sensors,
      hsensors, hlarge⟩
    · exact .joints hread ⟨number, hnumber, hlarge⟩
    · obtain ⟨groups, rfl, hgroups, rfl⟩ :=
        (exists_repeated_iff exists_readJoint_iff number _ _).1 ⟨joints, hjoints⟩
      exact .sensors hread hnumber (withCapacity_eq_ok_iff.1 hroom) hgroups
        ⟨sensors, hsensors, hlarge⟩

theorem overflow_of_oversized {parse : Bytes → Option F64} {line : Bytes}
    (hoversized : Oversized parse (line.splitOn bar)) :
    parseTelemetryLine parse line = .error .capacityOverflow := by
  generalize hsplit : line.splitOn bar = parts at hoversized
  cases hoversized with
  | joints htimestamp hcount =>
      obtain ⟨timestampNs, htimestamp⟩ := Option.isSome_iff_exists.1 htimestamp
      obtain ⟨number, hnumber, hlarge⟩ := hcount
      simp [parseTelemetryLine, hsplit, htimestamp, hnumber,
        withCapacity_eq_overflow_iff.2 hlarge]
  | @sensors timestamp count sensorCount joints rest htimestamp hcount hroom hjoints hsensors =>
      obtain ⟨timestampNs, htimestamp⟩ := Option.isSome_iff_exists.1 htimestamp
      obtain ⟨number, hnumber, hlarge⟩ := hsensors
      obtain ⟨all, hread⟩ := (exists_repeated_iff exists_readJoint_iff joints.length _
        (sensorCount :: rest)).2 ⟨joints, rfl, hjoints, rfl⟩
      simp [parseTelemetryLine, hsplit, htimestamp, hcount, withCapacity_eq_ok_iff.2 hroom, hread,
        hnumber, withCapacity_eq_overflow_iff.2 hlarge]

/-- `parse_telemetry_line` returns on every line but those whose counts are too
large. -/
theorem parseTelemetryLine_returns_iff (parse : Bytes → Option F64) (line : Bytes) :
    parseTelemetryLine parse line ≠ .error .capacityOverflow ↔
      ¬ Oversized parse (line.splitOn bar) :=
  not_congr ⟨oversized_of_overflow, overflow_of_oversized⟩

/-- Twenty-four bytes in `telemetry.out` are enough. -/
theorem parseTelemetryLine_panics :
    parseTelemetryLine parseWhole (ascii "T|1|18446744073709551615") =
      .error .capacityOverflow ∧
    ¬ ∀ line : Bytes, Utf8.valid line = true →
      parseTelemetryLine parseWhole line ≠ .error .capacityOverflow := by
  have hpanics : parseTelemetryLine parseWhole (ascii "T|1|18446744073709551615") =
      .error .capacityOverflow := by
    decide +kernel
  exact ⟨hpanics, fun hall => hall _ (by decide +kernel) hpanics⟩

/-! ## Lines that are not UTF-8 -/

/-- The loop takes the lines before the first that is not UTF-8. -/
theorem drainRecords_eq_takeAll {parse : Bytes → Option F64} {lines : List Bytes}
    (hpanics : ∀ line ∈ lines, Utf8.valid line = true → ¬ Panics parse line)
    (transport : Iceoryx2Transport F64) :
    drainRecords parse transport lines =
      (takeAll parse transport (lines.takeWhile Utf8.valid), false) := by
  induction lines generalizing transport with
  | nil => rw [List.takeWhile_nil, takeAll_nil, drainRecords]
  | cons line lines ih =>
      by_cases hvalid : Utf8.valid line = true
      · rw [drainRecords, if_pos hvalid,
          drainLine_of_not_panics (hpanics line (List.mem_cons_self ..) hvalid),
          List.takeWhile_cons_of_pos hvalid, takeAll_cons]
        exact ih (fun other hother => hpanics other (List.mem_cons_of_mem _ hother)) _
      · rw [drainRecords, if_neg hvalid, List.takeWhile_cons_of_neg hvalid, takeAll_nil]

/-- One call of `drain_lines` reads the file to its end and keeps every frame
and every result behind the offset, whatever stands between them. -/
structure DrainsAll (parse : Bytes → Option F64) (file : Bytes)
    (transport : Iceoryx2Transport F64) : Prop where
  consumed : (drainLines parse file transport).1.telemetryOffset = file.length
  frames : (drainLines parse file transport).1.pendingTelemetry = transport.pendingTelemetry ++
    ((records newline (file.drop transport.telemetryOffset)).filter Utf8.valid).filterMap
      (frameOf parse)
  results : (drainLines parse file transport).1.pendingResults = transport.pendingResults ++
    ((records newline (file.drop transport.telemetryOffset)).filter Utf8.valid).filterMap resultOf
  returned : (drainLines parse file transport).2 = false

/-- Nothing is left behind the lines that are kept, for no line is empty. -/
theorem forall_of_length_takeWhile {keeps : Bytes → Bool} {lines : List Bytes}
    (hnonempty : ∀ line ∈ lines, line ≠ [])
    (hlength : (lines.takeWhile keeps).flatten.length = lines.flatten.length) :
    ∀ line ∈ lines, keeps line = true := by
  have hrest : (lines.dropWhile keeps).flatten = [] := by
    have hsplit : (lines.takeWhile keeps).flatten ++ (lines.dropWhile keeps).flatten =
        lines.flatten := by
      rw [← List.flatten_append, List.takeWhile_append_dropWhile]
    apply List.eq_nil_of_length_eq_zero
    rw [← hsplit, List.length_append] at hlength
    omega
  apply List.dropWhile_eq_nil_iff.1
  apply List.eq_nil_iff_forall_not_mem.2
  intro line hline
  exact hnonempty line ((List.dropWhile_sublist _).subset hline)
    (List.flatten_eq_nil_iff.1 hrest line hline)

/-- Every line is taken exactly when every line is UTF-8. -/
theorem drainsAll_iff {parse : Bytes → Option F64} {file : Bytes}
    {transport : Iceoryx2Transport F64} (hoffset : transport.telemetryOffset ≤ file.length)
    (hpanics : ∀ line ∈ records newline (file.drop transport.telemetryOffset),
      Utf8.valid line = true → ¬ Panics parse line) :
    DrainsAll parse file transport ↔
      ∀ line ∈ records newline (file.drop transport.telemetryOffset),
        Utf8.valid line = true := by
  have hdrain : drainLines parse file transport =
      (takeAll parse transport
        ((records newline (file.drop transport.telemetryOffset)).takeWhile Utf8.valid), false) :=
    drainRecords_eq_takeAll hpanics transport
  have hlength : transport.telemetryOffset +
      (records newline (file.drop transport.telemetryOffset)).flatten.length = file.length := by
    rw [flatten_records, List.length_drop]
    omega
  constructor
  · intro hdrains
    apply forall_of_length_takeWhile fun _ => ne_nil_of_mem_records
    have hconsumed := hdrains.consumed
    rw [hdrain, ← hlength] at hconsumed
    exact Nat.add_left_cancel hconsumed
  · intro hvalid
    rw [List.takeWhile_eq_self_iff.2 hvalid] at hdrain
    have hfilter := List.filter_eq_self.2 hvalid
    constructor
    · rw [hdrain]
      exact hlength
    · rw [hdrain, hfilter]
      rfl
    · rw [hdrain, hfilter]
      rfl
    · rw [hdrain]

/-- A frame, a line that is nothing, and a result. -/
theorem drainsAll_mixed :
    DrainsAll parseWhole (ascii "T|1|0|0\nrubbish\nR|7|5|0|ok\n") Iceoryx2Transport.new := by
  apply (drainsAll_iff (Nat.zero_le _) _).2
  · decide +kernel
  · decide +kernel

/-- The result behind a byte that is not UTF-8 is never read. -/
theorem drainsAll_invalid_line :
    drainLines parseWhole (255 :: newline :: ascii "R|7|5|0|ok\n") Iceoryx2Transport.new =
      (Iceoryx2Transport.new, false) ∧
    ¬ DrainsAll parseWhole (255 :: newline :: ascii "R|7|5|0|ok\n") Iceoryx2Transport.new := by
  have hstalled : drainLines parseWhole (255 :: newline :: ascii "R|7|5|0|ok\n")
      Iceoryx2Transport.new = (Iceoryx2Transport.new, false) := by
    decide +kernel
  refine ⟨hstalled, fun hdrains => ?_⟩
  have hconsumed := hdrains.consumed
  rw [hstalled] at hconsumed
  exact absurd hconsumed (by decide +kernel)

end ArcravenUgv.BadLines
