import ArcravenUgv.Rust.Text

/-!
# The records of `telemetry.out` as the Rust client reads them

`parse_telemetry_line` and `parse_result_line` of `Iceoryx2Transport`.  A line
is a `&str`, that is, UTF-8; parsing an `f64` is a parameter.
-/

namespace ArcravenUgv.RustRecords

open ArcravenUgv.Enums
open ArcravenUgv.Command
open ArcravenUgv.Decimal
open ArcravenUgv.CommandLine
open ArcravenUgv.RustText

variable {F64 : Type}

/-- `telemetry::JointState`. -/
structure RustJointState (F64 : Type) where
  id : Bytes
  name : Bytes
  position : F64
  velocity : F64
  load : F64
  deriving DecidableEq, Repr

structure SensorReading (F64 : Type) where
  sensor : Bytes
  values : List (Bytes × F64)
  deriving DecidableEq, Repr

structure SensorPayload where
  id : Bytes
  sensorType : Bytes
  payload : Bytes
  deriving DecidableEq, Repr

structure TelemetryFrame (F64 : Type) where
  timestampNs : UInt64
  joints : List (RustJointState F64)
  sensors : List (SensorReading F64)
  payloads : List SensorPayload
  deriving DecidableEq, Repr

/-- The Rust enumerations have the wire numbers of the C++ ones; they lack
`SafetyLockout`. -/
structure CommandResultEvent where
  commandId : UInt64
  result : CommandResult
  deriving DecidableEq, Repr

/-- Why no frame is returned: the function returns `None`, or
`Vec::with_capacity` panics. -/
inductive Refusal
  | none
  | capacityOverflow
  deriving DecidableEq, Repr

/-- The `?` operator. -/
def orNone {A : Type} : Option A → Except Refusal A
  | some value => .ok value
  | none => .error .none

/-- `parts.next()`. -/
def next : List Bytes → Option (Bytes × List Bytes)
  | [] => none
  | part :: parts => some (part, parts)

/-- `Vec::with_capacity` for elements of 72 bytes, which both element types
have.  An allocation that is not too large for a vector is taken as granted; where
the memory does not suffice, the client aborts instead. -/
def withCapacity (count : ℕ) : Except Refusal Unit :=
  if 2 ^ 63 ≤ count * 72 then .error .capacityOverflow else .ok ()

/-- `for _ in 0..count`, pushing what the body reads off the parts. -/
def repeated {A : Type} (body : List Bytes → Except Refusal (A × List Bytes)) :
    ℕ → List Bytes → Except Refusal (List A × List Bytes)
  | 0, parts => .ok ([], parts)
  | count + 1, parts => do
      let (one, parts) ← body parts
      let (others, parts) ← repeated body count parts
      .ok (one :: others, parts)

def readJoint (parse : Bytes → Option F64) (parts : List Bytes) :
    Except Refusal (RustJointState F64 × List Bytes) := do
  let (id, parts) ← orNone (next parts)
  let (name, parts) ← orNone (next parts)
  let (text, parts) ← orNone (next parts)
  let position ← orNone (parse text)
  let (text, parts) ← orNone (next parts)
  let velocity ← orNone (parse text)
  let (text, parts) ← orNone (next parts)
  let load ← orNone (parse text)
  .ok ({ id, name, position, velocity, load }, parts)

/-- `String::from_utf8`. -/
def fromUtf8 (bytes : Bytes) : Option Bytes :=
  if Utf8.valid bytes then some bytes else none

def readSensor (parts : List Bytes) : Except Refusal (SensorPayload × List Bytes) := do
  let (id, parts) ← orNone (next parts)
  let (sensorType, parts) ← orNone (next parts)
  let (payloadB64, parts) ← orNone (next parts)
  let payloadBytes ← orNone (Radix64.decode payloadB64)
  let payload ← orNone (fromUtf8 payloadBytes)
  .ok ({ id, sensorType, payload }, parts)

def parseTelemetryLine (parse : Bytes → Option F64) (line : Bytes) :
    Except Refusal (TelemetryFrame F64) := do
  let (tag, parts) ← orNone (next (line.splitOn bar))
  if tag ≠ ascii "T" then .error .none
  else
    let (text, parts) ← orNone (next parts)
    let timestampNs ← orNone (parseUnsigned 64 text)
    let (text, parts) ← orNone (next parts)
    let jointCount ← orNone (parseUnsigned 64 text)
    withCapacity jointCount
    let (joints, parts) ← repeated (readJoint parse) jointCount parts
    let (text, parts) ← orNone (next parts)
    let sensorCount ← orNone (parseUnsigned 64 text)
    withCapacity sensorCount
    let (payloads, _) ← repeated readSensor sensorCount parts
    .ok { timestampNs := UInt64.ofNat timestampNs, joints, sensors := [], payloads }

def statusFromU16 : ℕ → CommandStatus
  | 1 => .received
  | 2 => .accepted
  | 3 => .rejected
  | 4 => .running
  | 5 => .succeeded
  | 6 => .failed
  | 7 => .aborted
  | 8 => .preempted
  | 9 => .expired
  | _ => .none

def rejectFromU16 : ℕ → RejectReason
  | 1 => .notAuthorized
  | 2 => .invalidPayload
  | 3 => .unsupported
  | 4 => .unsafeCommand
  | 5 => .busy
  | 6 => .preconditionsFail
  | 7 => .timeout
  | 8 => .staleCommand
  | _ => .none

/-- A missing message is the empty string. -/
def parseResultLine (line : Bytes) : Option CommandResultEvent := do
  let (tag, parts) ← next (line.splitOn bar)
  if tag ≠ ascii "R" then none
  else
    let (text, parts) ← next parts
    let commandId ← parseUnsigned 64 text
    let (text, parts) ← next parts
    let statusRaw ← parseUnsigned 16 text
    let (text, parts) ← next parts
    let rejectRaw ← parseUnsigned 16 text
    let message := ((next parts).map Prod.fst).getD []
    some {
      commandId := UInt64.ofNat commandId
      result := {
        status := statusFromU16 statusRaw
        rejectReason := rejectFromU16 rejectRaw
        message } }

/-! ## Reading on -/

@[simp]
theorem next_cons (part : Bytes) (parts : List Bytes) :
    next (part :: parts) = some (part, parts) := rfl

@[simp]
theorem orNone_some {A : Type} (value : A) : orNone (some value) = .ok value := rfl

@[simp]
theorem orNone_none {A : Type} : (orNone none : Except Refusal A) = .error .none := rfl

@[simp]
theorem ok_bind {A B : Type} (value : A) (rest : A → Except Refusal B) :
    (Except.ok value >>= rest) = rest value := rfl

@[simp]
theorem error_bind {A B : Type} (refusal : Refusal) (rest : A → Except Refusal B) :
    (Except.error refusal >>= rest) = .error refusal := rfl

theorem bind_eq_ok_iff {A B : Type} {first : Except Refusal A} {rest : A → Except Refusal B}
    {result : B} : (first >>= rest) = .ok result ↔
      ∃ value, first = .ok value ∧ rest value = .ok result := by
  cases first with
  | error refusal => simp
  | ok value => simp

theorem orNone_eq_ok_iff {A : Type} {option : Option A} {value : A} :
    orNone option = .ok value ↔ option = some value := by
  cases option <;> simp

theorem next_eq_some_iff {parts rest : List Bytes} {part : Bytes} :
    next parts = some (part, rest) ↔ parts = part :: rest := by
  cases parts <;> simp [next]

theorem parseResultLine_of_tag {line tag : Bytes} {parts : List Bytes}
    (hparts : line.splitOn bar = tag :: parts) (htag : tag ≠ ascii "R") :
    parseResultLine line = none := by
  simp [parseResultLine, hparts, htag]

/-- Only a line with the tag `T` is read as a frame. -/
theorem tag_of_parseTelemetryLine {parse : Bytes → Option F64} {line : Bytes}
    {frame : TelemetryFrame F64} (hparse : parseTelemetryLine parse line = .ok frame) :
    ∃ parts, line.splitOn bar = ascii "T" :: parts := by
  cases hparts : line.splitOn bar with
  | nil => exact absurd hparts (List.splitOn_ne_nil bar line)
  | cons tag parts =>
      by_cases htag : tag = ascii "T"
      · exact ⟨parts, by rw [htag]⟩
      · simp [parseTelemetryLine, hparts, htag] at hparse

/-- A loop over the parts of some items in a row, with any parts behind them. -/
theorem repeated_flatMap {A B : Type} {body : List Bytes → Except Refusal (A × List Bytes)}
    {parts : B → List Bytes} {read : B → A} {items : List B}
    (hbody : ∀ item ∈ items, ∀ rest, body (parts item ++ rest) = .ok (read item, rest))
    (rest : List Bytes) :
    repeated body items.length (items.flatMap parts ++ rest) = .ok (items.map read, rest) := by
  induction items with
  | nil => rfl
  | cons item items ih =>
      rw [List.length_cons, repeated, List.flatMap_cons, List.append_assoc,
        hbody item (by simp)]
      simp only [ok_bind]
      rw [ih fun other hother => hbody other (List.mem_cons_of_mem _ hother)]
      rfl

/-- The loop stops at the first item that is refused. -/
theorem repeated_flatMap_error {A B : Type}
    {body : List Bytes → Except Refusal (A × List Bytes)} {parts : B → List Bytes}
    {read : B → Except Refusal A} {items : List B}
    (hbody : ∀ item ∈ items, ∀ rest,
      body (parts item ++ rest) = (read item).map fun one => (one, rest))
    (rest : List Bytes) :
    repeated body items.length (items.flatMap parts ++ rest) =
      (items.mapM read).map fun all => (all, rest) := by
  induction items with
  | nil => rfl
  | cons item items ih =>
      rw [List.length_cons, repeated, List.flatMap_cons, List.append_assoc,
        hbody item (by simp), List.mapM_cons]
      cases read item with
      | error refusal => rfl
      | ok one =>
          simp only [Except.map, ok_bind]
          rw [ih fun other hother => hbody other (List.mem_cons_of_mem _ hother)]
          cases items.mapM read <;> rfl

/-! ## Where the strings of a frame come from -/

/-- The strings of a frame that are copied from the line. -/
def TelemetryFrame.texts (frame : TelemetryFrame F64) : List Bytes :=
  frame.joints.flatMap (fun joint => [joint.id, joint.name]) ++
    frame.payloads.flatMap fun payload => [payload.id, payload.sensorType]

theorem texts_of_readJoint {parse : Bytes → Option F64} {parts rest : List Bytes}
    {joint : RustJointState F64} (hread : readJoint parse parts = .ok (joint, rest)) :
    rest <:+ parts ∧ ∀ text ∈ [joint.id, joint.name], text ∈ parts := by
  simp only [readJoint, bind_eq_ok_iff, orNone_eq_ok_iff, Prod.exists, next_eq_some_iff] at hread
  obtain ⟨id, _, rfl, name, _, rfl, _, _, rfl, _, -, _, _, rfl, _, -, _, _, rfl, _, -, hread⟩ :=
    hread
  obtain ⟨rfl, rfl⟩ := Prod.mk.inj (Except.ok.inj hread)
  exact ⟨⟨[_, _, _, _, _], rfl⟩, by simp⟩

theorem texts_of_readSensor {parts rest : List Bytes} {payload : SensorPayload}
    (hread : readSensor parts = .ok (payload, rest)) :
    rest <:+ parts ∧ ∀ text ∈ [payload.id, payload.sensorType], text ∈ parts := by
  simp only [readSensor, bind_eq_ok_iff, orNone_eq_ok_iff, Prod.exists, next_eq_some_iff] at hread
  obtain ⟨id, _, rfl, sensorType, _, rfl, _, _, rfl, _, -, _, -, hread⟩ := hread
  obtain ⟨rfl, rfl⟩ := Prod.mk.inj (Except.ok.inj hread)
  exact ⟨⟨[_, _, _], rfl⟩, by simp⟩

theorem texts_of_repeated {A : Type} {body : List Bytes → Except Refusal (A × List Bytes)}
    {texts : A → List Bytes}
    (hbody : ∀ parts one rest, body parts = .ok (one, rest) →
      rest <:+ parts ∧ ∀ text ∈ texts one, text ∈ parts)
    {count : ℕ} {parts rest : List Bytes} {all : List A}
    (hread : repeated body count parts = .ok (all, rest)) :
    rest <:+ parts ∧ ∀ text ∈ all.flatMap texts, text ∈ parts := by
  induction count generalizing parts all with
  | zero =>
      obtain ⟨rfl, rfl⟩ := Prod.mk.inj (Except.ok.inj hread)
      exact ⟨List.suffix_rfl, by simp⟩
  | succ count ih =>
      simp only [repeated, bind_eq_ok_iff, Prod.exists] at hread
      obtain ⟨one, middle, hone, others, last, hothers, hread⟩ := hread
      obtain ⟨rfl, rfl⟩ := Prod.mk.inj (Except.ok.inj hread)
      obtain ⟨hmiddle, htexts⟩ := hbody _ _ _ hone
      obtain ⟨hlast, hlater⟩ := ih hothers
      refine ⟨hlast.trans hmiddle, fun text htext => ?_⟩
      rw [List.flatMap_cons, List.mem_append] at htext
      rcases htext with htext | htext
      · exact htexts text htext
      · exact hmiddle.subset (hlater text htext)

/-- Every string is a part of the line as it stands. -/
theorem texts_of_parseTelemetryLine {parse : Bytes → Option F64} {line : Bytes}
    {frame : TelemetryFrame F64} (hparse : parseTelemetryLine parse line = .ok frame) :
    ∀ text ∈ frame.texts, text ∈ line.splitOn bar := by
  simp only [parseTelemetryLine, bind_eq_ok_iff, orNone_eq_ok_iff, Prod.exists,
    next_eq_some_iff] at hparse
  obtain ⟨tag, parts, hsplit, hparse⟩ := hparse
  split_ifs at hparse
  simp only [bind_eq_ok_iff, orNone_eq_ok_iff, Prod.exists, next_eq_some_iff] at hparse
  obtain ⟨_, _, rfl, _, -, _, _, rfl, _, -, _, -, joints, _, hjoints, _, _, rfl, _, -, _, -,
    payloads, _, hpayloads, hparse⟩ := hparse
  obtain rfl := Except.ok.inj hparse
  obtain ⟨hrest, hjoints⟩ := texts_of_repeated (fun _ _ _ => texts_of_readJoint) hjoints
  have hsensors := (texts_of_repeated (fun _ _ _ => texts_of_readSensor) hpayloads).2
  intro text htext
  rw [hsplit]
  rcases List.mem_append.1 htext with htext | htext
  · exact List.mem_cons_of_mem _ (List.mem_cons_of_mem _ (List.mem_cons_of_mem _
      (hjoints text htext)))
  · exact List.mem_cons_of_mem _ (List.mem_cons_of_mem _ (List.mem_cons_of_mem _
      (hrest.subset (List.mem_cons_of_mem _ (hsensors text htext)))))

end ArcravenUgv.RustRecords
