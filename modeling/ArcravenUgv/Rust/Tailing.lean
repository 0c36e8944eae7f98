import ArcravenUgv.Rust.Polling

/-!
# Two threads writing and one client reading

The control thread publishes results and the sensor thread telemetry, each
through its own stream.  A record larger than the stream's buffer reaches
`telemetry.out` in several writes, and between them the other thread may write
and the client may read.
-/

namespace ArcravenUgv.Tailing

open ArcravenUgv.Enums
open ArcravenUgv.Command
open ArcravenUgv.Decimal
open ArcravenUgv.Delimited
open ArcravenUgv.CommandLine
open ArcravenUgv.Bridge
open ArcravenUgv.RustText
open ArcravenUgv.RustRecords
open ArcravenUgv.RoundTrip
open ArcravenUgv.Drain
open ArcravenUgv.Polling
open ArcravenUgv.Runs

variable {Double F64 : Type}

/-! ## Records -/

inductive Publisher
  | control
  | sensor
  deriving DecidableEq, Repr

inductive Record (Double : Type)
  | result (commandId : UInt64) (outcome : CommandResult)
  | telemetry (frame : SensorFrame) (joints : List (JointState Double))
  deriving DecidableEq

namespace Record

def publisher : Record Double → Publisher
  | .result _ _ => .control
  | .telemetry _ _ => .sensor

/-- What the call writes. -/
def bytes (print : Double → Bytes) : Record Double → Bytes
  | .result commandId outcome => publishCommandResult commandId outcome
  | .telemetry frame joints => publishTelemetry print frame joints

def line (print : Double → Bytes) : Record Double → Bytes
  | .result commandId outcome => resultLine commandId outcome
  | .telemetry frame joints => telemetryLine print frame joints

/-- The strings stay within their fields, and white space at the end of a
message would be trimmed off with the newline. -/
def WellFormed : Record Double → Prop
  | .result _ outcome =>
      Utf8.valid outcome.message = true ∧ newline ∉ outcome.message ∧ Trimmed outcome.message
  | .telemetry frame joints =>
      (∀ text ∈ freeTexts frame joints, OneField text ∧ Utf8.valid text = true) ∧
        (∀ sensor ∈ sensorFields frame, Utf8.valid sensor.2.2 = true) ∧ InMemory frame joints

/-- The frame to deliver, its numbers as they were printed. -/
def frame (value : Double → F64) : Record Double → Option (TelemetryFrame F64)
  | .result _ _ => none
  | .telemetry frame joints => some (receivedFrame value frame joints)

/-- The result to deliver, in the client's types: a `SafetyLockout` is there `None`. -/
def event : Record Double → Option CommandResultEvent
  | .result commandId outcome => some (receivedResult commandId outcome)
  | .telemetry _ _ => none

theorem bytes_eq_line (print : Double → Bytes) (record : Record Double) :
    record.bytes print = record.line print ++ [newline] := by
  cases record with
  | result commandId outcome => exact publishCommandResult_eq commandId outcome
  | telemetry frame joints => exact publishTelemetry_eq_line print frame joints

section WellFormed

variable {print : Double → Bytes} {parse : Bytes → Option F64} {value : Double → F64}
variable {record : Record Double}

theorem trimEnd_line (hwellFormed : record.WellFormed) :
    trimEnd (record.line print) = record.line print := by
  cases record with
  | result commandId outcome => exact trimEnd_of_trimmed (trimmed_resultLine _ hwellFormed.2.2)
  | telemetry frame joints => exact trimEnd_of_trimmed (trimmed_telemetryLine print frame joints)

/-- The client reads the whole line as the record. -/
theorem parse_line (hprints : Prints print parse value) (hwellFormed : record.WellFormed) :
    (parseTelemetryLine parse (record.line print) =
      match record.frame value with
      | some frame => .ok frame
      | none => .error .none) ∧
    parseResultLine (record.line print) = record.event := by
  cases record with
  | result commandId outcome =>
      refine ⟨?_, parseResultLine_resultLine commandId outcome⟩
      simp [parseTelemetryLine, line, splitOn_resultLine, frame, ascii]
  | telemetry frame joints =>
      obtain ⟨hfree, hpayloads, hmemory⟩ := hwellFormed
      have hfields : ∀ text ∈ freeTexts frame joints, OneField text :=
        fun text htext => (hfree text htext).1
      exact ⟨parseTelemetryLine_telemetryLine hprints hfields hpayloads hmemory,
        parseResultLine_of_tag (splitOn_telemetryLine hprints hfields) (by decide)⟩

theorem readable_line (hprints : Prints print parse value) (hwellFormed : record.WellFormed) :
    Readable parse (record.line print) where
  one_line := by
    cases record with
    | result commandId outcome => exact newline_not_mem_resultLine _ hwellFormed.2.1
    | telemetry frame joints =>
        exact newline_not_mem_telemetryLine hprints fun text htext =>
          (hwellFormed.1 text htext).1
  utf8 := by
    cases record with
    | result commandId outcome => exact valid_resultLine _ hwellFormed.1
    | telemetry frame joints =>
        exact valid_telemetryLine hprints fun text htext => (hwellFormed.1 text htext).2
  returns := by
    rw [Panics, trimEnd_line hwellFormed, (parse_line hprints hwellFormed).1]
    cases record.frame value <;> simp

theorem frameOf_line (hprints : Prints print parse value) (hwellFormed : record.WellFormed) :
    frameOf parse (record.line print) = record.frame value := by
  rw [frameOf, trimEnd_line hwellFormed, (parse_line hprints hwellFormed).1]
  cases record.frame value <;> rfl

theorem resultOf_line (hprints : Prints print parse value) (hwellFormed : record.WellFormed) :
    resultOf (record.line print) = record.event := by
  rw [resultOf, trimEnd_line hwellFormed, (parse_line hprints hwellFormed).2]

end WellFormed

end Record

/-! ## The writes -/

/-- `telemetry.out`, what each thread has still to write of its record, and the
client. -/
structure Tailed (F64 : Type) where
  telemetryOut : Bytes
  unwritten : Publisher → Bytes
  client : Client F64

/-- The first write of a record, the next write of an unfinished one, or a step
of the client.  A write is of one byte at least. -/
inductive Label (Double : Type)
  | begin (record : Record Double) (more : ℕ)
  | resume (publisher : Publisher) (more : ℕ)
  | client (move : Move)

def Tailed.new : Tailed F64 where
  telemetryOut := []
  unwritten := fun _ => []
  client := Client.new

/-- One write of the publisher, with `text` still to be written before it. -/
def Tailed.write (state : Tailed F64) (publisher : Publisher) (text : Bytes) (more : ℕ) :
    Tailed F64 :=
  { state with
    telemetryOut := state.telemetryOut ++ text.take (more + 1)
    unwritten := Function.update state.unwritten publisher (text.drop (more + 1)) }

def step (print : Double → Bytes) (parse : Bytes → Option F64) (state : Tailed F64) :
    Label Double → Option (Tailed F64 × List (Event (Record Double) F64))
  | .begin record more =>
      if state.unwritten record.publisher = [] then
        some (state.write record.publisher (record.bytes print) more, [.written record])
      else none
  | .resume publisher more =>
      if state.unwritten publisher = [] then none
      else some (state.write publisher (state.unwritten publisher) more, [])
  | .client move =>
      (clientStep parse state.telemetryOut state.client move).map fun (client, returned) =>
        ({ state with client }, returned.map .returned)

def system (print : Double → Bytes) (parse : Bytes → Option F64) :
    System (Tailed F64) (Label Double) (Event (Record Double) F64) where
  step := step print parse

/-- The published records are well formed. -/
def PublishesWellFormed (_ : Tailed F64) : Label Double → Prop
  | .begin record _ => record.WellFormed
  | _ => True

/-- The bytes behind the client's offset. -/
def Tailed.unread (state : Tailed F64) : Bytes :=
  state.telemetryOut.drop state.client.transport.telemetryOffset

/-- No record is begun inside another one, and where the client reads, there is
a newline to read up to or a broken character at the end, or the record under
way lacks at most its newline. -/
def Undisturbed (state : Tailed F64) : Label Double → Prop
  | .begin _ _ => ∀ publisher, state.unwritten publisher = []
  | .client (.read true) =>
      newline ∈ state.unread ∨ Utf8.valid state.unread = false ∨
        ∀ publisher, state.unwritten publisher <:+ [newline]
  | _ => True

/-- The client moves, and no system call of its fails. -/
def OnlyClient (_ : Tailed F64) : Label Double → Prop
  | .client move => move.ok = true
  | _ => False

/-! ## Delivered and to come -/

/-- What is still to be written; only one thread has anything. -/
def Tailed.owed (state : Tailed F64) : Bytes :=
  state.unwritten .control ++ state.unwritten .sensor

/-- The records published are delivered or lie whole in what is unread and what
is still to be written; `lead` is the newline of a record that was read without
it. -/
structure Whole (print : Double → Bytes) (value : Double → F64)
    (trace : List (Event (Record Double) F64)) (state : Tailed F64)
    (delivered awaited : List (Record Double)) (lead : Bytes) : Prop where
  published : written trace = delivered ++ awaited
  wellFormed : ∀ record ∈ written trace, record.WellFormed
  alone : state.unwritten .control = [] ∨ state.unwritten .sensor = []
  lead_cases : lead = [] ∨ lead = [newline]
  behind : state.client.transport.telemetryOffset ≤ state.telemetryOut.length
  bytes : state.unread ++ state.owed = lead ++ wholeLines (awaited.map (Record.line print))
  telemetry : deliveredTelemetry trace state.client = delivered.filterMap (Record.frame value)
  results : deliveredResults trace state.client = delivered.filterMap Record.event

section Steps

variable {print : Double → Bytes} {parse : Bytes → Option F64} {value : Double → F64}
variable {trace : List (Event (Record Double) F64)} {state : Tailed F64}
variable {delivered awaited : List (Record Double)} {lead : Bytes}

/-- A write moves bytes from what is owed to the file. -/
theorem unread_write (publisher : Publisher) (text : Bytes) (more : ℕ)
    (hbehind : state.client.transport.telemetryOffset ≤ state.telemetryOut.length) :
    (state.write publisher text more).unread = state.unread ++ text.take (more + 1) :=
  List.drop_append_of_le_length hbehind

theorem owed_write {publisher : Publisher} (text : Bytes) (more : ℕ)
    (hothers : ∀ other, other ≠ publisher → state.unwritten other = []) :
    (state.write publisher text more).owed = text.drop (more + 1) := by
  cases publisher with
  | control => simp [Tailed.owed, Tailed.write, hothers .sensor (by decide)]
  | sensor => simp [Tailed.owed, Tailed.write, hothers .control (by decide)]

theorem alone_write {publisher : Publisher} (text : Bytes) (more : ℕ)
    (hothers : ∀ other, other ≠ publisher → state.unwritten other = []) :
    (state.write publisher text more).unwritten .control = [] ∨
      (state.write publisher text more).unwritten .sensor = [] := by
  cases publisher with
  | control => exact .inr (by simp [Tailed.write, hothers .sensor (by decide)])
  | sensor => exact .inl (by simp [Tailed.write, hothers .control (by decide)])

theorem Whole.begin (hwhole : Whole print value trace state delivered awaited lead)
    {record : Record Double} (hwellFormed : record.WellFormed)
    (hnone : ∀ publisher, state.unwritten publisher = []) (more : ℕ) :
    Whole print value (trace ++ [.written record])
      (state.write record.publisher (record.bytes print) more) delivered (awaited ++ [record])
      lead where
  published := by
    rw [written_append, hwhole.published, List.append_assoc]
    rfl
  wellFormed other hother := by
    rw [written_append, List.mem_append] at hother
    rcases hother with hother | hother
    · exact hwhole.wellFormed other hother
    · obtain rfl := List.mem_singleton.1 hother
      exact hwellFormed
  alone := alone_write _ _ fun other _ => hnone other
  lead_cases := hwhole.lead_cases
  behind := hwhole.behind.trans (by simp [Tailed.write])
  bytes := by
    have howed : state.owed = [] := by simp [Tailed.owed, hnone]
    have hbytes := hwhole.bytes
    rw [howed, List.append_nil] at hbytes
    rw [unread_write _ _ _ hwhole.behind, owed_write _ _ fun other _ => hnone other,
      List.append_assoc, List.take_append_drop, hbytes, List.append_assoc, List.map_append,
      List.map_singleton, wholeLines_append, wholeLines_singleton, record.bytes_eq_line]
  telemetry := (deliveredTelemetry_written record).trans hwhole.telemetry
  results := (deliveredResults_written record).trans hwhole.results

/-- Only one thread has anything left to write. -/
theorem others_of_alone
    (halone : state.unwritten .control = [] ∨ state.unwritten .sensor = [])
    {publisher : Publisher} (hunwritten : state.unwritten publisher ≠ []) :
    (∀ other, other ≠ publisher → state.unwritten other = []) ∧
      state.owed = state.unwritten publisher := by
  cases publisher with
  | control =>
      have hsensor := halone.resolve_left hunwritten
      refine ⟨fun other hother => ?_, by rw [Tailed.owed, hsensor, List.append_nil]⟩
      cases other with
      | control => exact absurd rfl hother
      | sensor => exact hsensor
  | sensor =>
      have hcontrol := halone.resolve_right hunwritten
      refine ⟨fun other hother => ?_, by rw [Tailed.owed, hcontrol, List.nil_append]⟩
      cases other with
      | control => exact hcontrol
      | sensor => exact absurd rfl hother

theorem Whole.resume (hwhole : Whole print value trace state delivered awaited lead)
    {publisher : Publisher} (hunwritten : state.unwritten publisher ≠ []) (more : ℕ) :
    Whole print value trace (state.write publisher (state.unwritten publisher) more) delivered
      awaited lead := by
  obtain ⟨hothers, howed⟩ := others_of_alone hwhole.alone hunwritten
  exact {
    published := hwhole.published
    wellFormed := hwhole.wellFormed
    alone := alone_write _ _ hothers
    lead_cases := hwhole.lead_cases
    behind := hwhole.behind.trans (by simp [Tailed.write])
    bytes := by
      rw [unread_write _ _ _ hwhole.behind, owed_write _ _ hothers, List.append_assoc,
        List.take_append_drop, ← howed]
      exact hwhole.bytes
    telemetry := hwhole.telemetry
    results := hwhole.results }

theorem Whole.wellFormed_awaited (hwhole : Whole print value trace state delivered awaited lead)
    {record : Record Double} (hrecord : record ∈ awaited) : record.WellFormed :=
  hwhole.wellFormed record (hwhole.published ▸ List.mem_append_right delivered hrecord)

/-- What a `read_line` takes off the file when nothing disturbs it: a newline that
was missing before, or the next record with or without its newline. -/
inductive Taken (print : Double → Bytes) (awaited : List (Record Double)) (lead text : Bytes) :
    Prop
  | leftover (hlead : lead = [newline]) (htext : text = [newline])
  | whole (record : Record Double) (later : List (Record Double)) (hlead : lead = [])
      (hawaited : awaited = record :: later) (htext : text = record.line print ++ [newline])
  | unfinished (record : Record Double) (hlead : lead = []) (hawaited : awaited = [record])
      (htext : text = record.line print)

theorem owed_of_suffix (halone : state.unwritten .control = [] ∨ state.unwritten .sensor = [])
    (hsuffix : ∀ publisher, state.unwritten publisher <:+ [newline]) :
    state.owed <:+ [newline] := by
  rcases halone with hnone | hnone
  · simpa [Tailed.owed, hnone] using hsuffix .sensor
  · simpa [Tailed.owed, hnone] using hsuffix .control

/-- Of a record without its newline all but the newline is read. -/
theorem Whole.taken_last (hprints : Prints print parse value) {record : Record Double}
    {later : List (Record Double)}
    (hwhole : Whole print value trace state delivered (record :: later) [])
    (hundisturbed : newline ∈ state.unread ∨ Utf8.valid state.unread = false ∨
      ∀ publisher, state.unwritten publisher <:+ [newline]) {middle text : Bytes}
    (hline : record.line print = state.unread ++ middle)
    (howed : state.owed = middle ++ newline :: wholeLines (later.map (Record.line print)))
    (hunread : state.unread ≠ [])
    (htext : RustText.readLine state.telemetryOut state.client.transport.telemetryOffset =
      .line text) : Taken print (record :: later) [] text := by
  have hreadable : Readable parse (record.line print) :=
    record.readable_line hprints (hwhole.wellFormed_awaited (List.mem_cons_self ..))
  have hfree : newline ∉ state.unread := fun hmem =>
    hreadable.one_line (hline ▸ List.mem_append_left middle hmem)
  rw [readLine_of_last rfl hfree hunread] at htext
  rcases hundisturbed with hnewline | hbroken | hsuffix
  · exact absurd hnewline hfree
  · rw [if_neg (by simpa [Tailed.unread] using hbroken)] at htext
    cases htext
  · -- One byte is owed, and that is the newline of this record.
    have hlength := (owed_of_suffix hwhole.alone hsuffix).length_le
    rw [howed, List.length_append, List.length_cons, List.length_singleton] at hlength
    obtain rfl : middle = [] := List.eq_nil_of_length_eq_zero (by omega)
    have hlater : later = [] := by
      cases later with
      | nil => rfl
      | cons next later =>
          rw [List.map_cons, wholeLines_cons, List.length_append, List.length_cons] at hlength
          omega
    rw [List.append_nil] at hline
    rw [← Tailed.unread, ← hline, if_pos hreadable.utf8] at htext
    exact .unfinished record rfl (by rw [hlater]) (ReadLine.line.inj htext).symm

theorem Whole.taken (hprints : Prints print parse value)
    (hwhole : Whole print value trace state delivered awaited lead)
    (hundisturbed : newline ∈ state.unread ∨ Utf8.valid state.unread = false ∨
      ∀ publisher, state.unwritten publisher <:+ [newline]) {text : Bytes}
    (htext : RustText.readLine state.telemetryOut state.client.transport.telemetryOffset =
      .line text) : Taken print awaited lead text := by
  have hbytes := hwhole.bytes
  have hunread : state.unread ≠ [] := by
    intro hempty
    rw [readLine_of_end hempty] at htext
    cases htext
  rcases hwhole.lead_cases with rfl | rfl
  · cases awaited with
    | nil =>
        rw [List.nil_append] at hbytes
        exact absurd (List.append_eq_nil_iff.1 hbytes).1 hunread
    | cons record later =>
        rw [List.nil_append, List.map_cons, wholeLines_cons] at hbytes
        rcases List.append_eq_append_iff.1 hbytes with
          ⟨middle, hline, howed⟩ | ⟨middle, hsplit, hrest⟩
        · exact hwhole.taken_last hprints hundisturbed hline howed hunread htext
        · cases middle with
          | nil =>
              rw [List.append_nil] at hsplit
              rw [List.nil_append] at hrest
              exact hwhole.taken_last hprints hundisturbed
                (show record.line print = state.unread ++ [] by simp [hsplit]) hrest.symm hunread
                htext
          | cons first middle =>
              obtain ⟨rfl, -⟩ := List.cons.inj hrest
              have hreadable : Readable parse (record.line print) :=
                record.readable_line hprints (hwhole.wellFormed_awaited (List.mem_cons_self ..))
              have hread := readLine_of_newline hsplit hreadable.one_line hreadable.utf8
              exact .whole record later rfl rfl (ReadLine.line.inj (htext.symm.trans hread))
  · -- The newline left over is the next byte.
    obtain ⟨first, rest, hfirst⟩ := List.exists_cons_of_ne_nil hunread
    rw [hfirst] at hbytes
    obtain ⟨rfl, -⟩ := List.cons.inj hbytes
    have hsplit : state.unread = [] ++ newline :: rest := hfirst
    have hread := readLine_of_newline hsplit (by simp) rfl
    exact .leftover rfl (ReadLine.line.inj (htext.symm.trans hread))

/-- The records among what was read, and the rest. -/
theorem Taken.split (hprints : Prints print parse value)
    (hwellFormed : ∀ record ∈ awaited, record.WellFormed) {text : Bytes}
    (htaken : Taken print awaited lead text) :
    ∃ now later left, awaited = now ++ later ∧ (left = [] ∨ left = [newline]) ∧
      lead ++ wholeLines (awaited.map (Record.line print)) =
        text ++ (left ++ wholeLines (later.map (Record.line print))) ∧
      (frameOf parse text).toList = now.filterMap (Record.frame value) ∧
      (resultOf text).toList = now.filterMap Record.event ∧ ¬ Panics parse text := by
  have hone : ∀ record : Record Double, record.WellFormed →
      (frameOf parse (record.line print)).toList = [record].filterMap (Record.frame value) ∧
      (resultOf (record.line print)).toList = [record].filterMap Record.event ∧
      ¬ Panics parse (record.line print) := by
    intro record hrecord
    refine ⟨?_, ?_, (record.readable_line hprints hrecord).returns⟩
    · rw [record.frameOf_line hprints hrecord]
      exact (filterMap_concat (Record.frame value) [] record).symm
    · rw [record.resultOf_line hprints hrecord]
      exact (filterMap_concat Record.event [] record).symm
  cases htaken with
  | leftover hlead htext =>
      subst hlead htext
      refine ⟨[], awaited, [], rfl, .inl rfl, rfl, rfl, rfl, ?_⟩
      intro hpanics
      cases hpanics
  | whole record later hlead hawaited htext =>
      subst hlead hawaited htext
      obtain ⟨hframe, hresult, hreturns⟩ := hone record (hwellFormed record (by simp))
      refine ⟨[record], later, [], rfl, .inl rfl, ?_, ?_, ?_, ?_⟩
      · simp [wholeLines_cons]
      · rw [frameOf_append_newline, hframe]
      · rw [resultOf_append_newline, hresult]
      · rwa [panics_append_newline]
  | unfinished record hlead hawaited htext =>
      subst hlead hawaited htext
      obtain ⟨hframe, hresult, hreturns⟩ := hone record (hwellFormed record (by simp))
      exact ⟨[record], [], [newline], rfl, .inr rfl, by simp [wholeLines], hframe, hresult,
        hreturns⟩

theorem Whole.took {text : Bytes} {client : Client F64}
    (hprints : Prints print parse value)
    (hwhole : Whole print value trace state delivered awaited lead)
    (htaken : Taken print awaited lead text)
    (htext : RustText.readLine state.telemetryOut state.client.transport.telemetryOffset =
      .line text)
    (htransport : client.transport = state.client.transport.take parse text) :
    ∃ delivered awaited lead,
      Whole print value trace { state with client } delivered awaited lead := by
  obtain ⟨now, later, left, rfl, hleft, hbytes, hframes, hresults, -⟩ :=
    htaken.split hprints fun _ => hwhole.wellFormed_awaited
  obtain ⟨rest, hrest⟩ := prefix_of_readLine htext
  have hunread : ({ state with client } : Tailed F64).unread = rest := by
    rw [Tailed.unread, htransport, Iceoryx2Transport.take, ← List.drop_drop, ← hrest,
      List.drop_left]
  refine ⟨delivered ++ now, later, left, ?_⟩
  exact {
    published := by rw [hwhole.published, List.append_assoc]
    wellFormed := hwhole.wellFormed
    alone := hwhole.alone
    lead_cases := hleft
    behind := by
      have hlength := congrArg List.length hrest
      rw [List.length_append, List.length_drop] at hlength
      have hbehind := hwhole.behind
      rw [htransport]
      simp only [Iceoryx2Transport.take]
      omega
    bytes := by
      refine (List.append_right_inj text).1 ?_
      rw [← hbytes, ← hwhole.bytes, hunread, ← List.append_assoc, hrest]
      rfl
    telemetry := by
      rw [List.filterMap_append, ← hwhole.telemetry, ← hframes]
      exact (delivered_take htransport).1
    results := by
      rw [List.filterMap_append, ← hwhole.results, ← hresults]
      exact (delivered_take htransport).2 }

theorem Whole.stepped {move : Move} {client : Client F64} {returned : List (Returned F64)}
    (hprints : Prints print parse value)
    (hwhole : Whole print value trace state delivered awaited lead)
    (hundisturbed : Undisturbed state (.client move : Label Double))
    (hstepped : Stepped parse state.telemetryOut state.client move client returned) :
    ∃ delivered awaited lead, Whole print value (trace ++ returned.map .returned)
      { state with client } delivered awaited lead := by
  rcases hstepped.taken_or_nothing trace with ⟨text, rfl, rfl, htext, hline⟩ | hnothing
  · have htaken := hwhole.taken hprints hundisturbed htext
    have hreturns : ¬ Panics parse text := by
      obtain ⟨-, -, -, -, -, -, -, -, hreturns⟩ :=
        htaken.split hprints fun _ => hwhole.wellFormed_awaited
      exact hreturns
    rw [List.map_nil, List.append_nil]
    exact hwhole.took hprints htaken htext (hline.resolve_left hreturns)
  · exact ⟨delivered, awaited, lead, {
      published := hnothing.written.trans hwhole.published
      wellFormed := by rw [hnothing.written]; exact hwhole.wellFormed
      alone := hwhole.alone
      lead_cases := hwhole.lead_cases
      behind := by rw [hnothing.offset]; exact hwhole.behind
      bytes := by rw [Tailed.unread, hnothing.offset]; exact hwhole.bytes
      telemetry := hnothing.telemetry.trans hwhole.telemetry
      results := hnothing.results.trans hwhole.results }⟩

/-- The runs whose records are well formed and that nothing disturbs. -/
def Orderly (state : Tailed F64) (label : Label Double) : Prop :=
  PublishesWellFormed state label ∧ Undisturbed state label

theorem whole_of_run (hprints : Prints print parse value)
    (hrun : Run (system print parse) Orderly .new trace state) :
    ∃ delivered awaited lead, Whole print value trace state delivered awaited lead := by
  refine hrun.invariant (fun trace state => ∃ delivered awaited lead,
    Whole print value trace state delivered awaited lead) ?_ ?_
  · exact ⟨[], [], [], ⟨rfl, by simp [written], .inl rfl, .inl rfl, le_rfl, rfl, rfl, rfl⟩⟩
  · rintro trace state label next events - ⟨delivered, awaited, lead, hwhole⟩
      ⟨hwellFormed, hundisturbed⟩ hstep
    cases label with
    | begin record more =>
        have hnone : state.unwritten record.publisher = [] := hundisturbed record.publisher
        simp only [system, step, hnone, if_true, Option.some.injEq, Prod.mk.injEq] at hstep
        obtain ⟨rfl, rfl⟩ := hstep
        exact ⟨delivered, awaited ++ [record], lead,
          hwhole.begin hwellFormed hundisturbed more⟩
    | resume publisher more =>
        simp only [system, step] at hstep
        split_ifs at hstep with hunwritten
        obtain ⟨rfl, rfl⟩ := Prod.mk.inj (Option.some.inj hstep)
        rw [List.append_nil]
        exact ⟨delivered, awaited, lead, hwhole.resume hunwritten more⟩
    | client move =>
        obtain ⟨⟨client, returned⟩, hclient, heq⟩ := Option.map_eq_some_iff.1 hstep
        obtain ⟨rfl, rfl⟩ := Prod.mk.inj heq
        exact hwhole.stepped hprints hundisturbed (stepped_of_clientStep hclient)

/-- After the last write: what is owed stays empty, and once a poll has returned
no line is left. -/
structure Settled (later : List (Event (Record Double) F64)) (state : Tailed F64) : Prop where
  quiet : written later = []
  unwritten : ∀ publisher, state.unwritten publisher = []
  read : (∃ value, .returned value ∈ later) →
    ∀ line, RustText.readLine state.telemetryOut
      state.client.transport.telemetryOffset ≠ .line line

theorem Settled.step {later events : List (Event (Record Double) F64)} {label : Label Double}
    {next : Tailed F64} (hsettled : Settled later state) (hallowed : OnlyClient state label)
    (hstep : Tailing.step print parse state label = some (next, events)) :
    Settled (later ++ events) next ∧ Orderly state label := by
  cases label with
  | begin record more => cases hallowed
  | resume publisher more => cases hallowed
  | client move =>
      have horderly : Orderly state (.client move : Label Double) := by
        refine ⟨trivial, ?_⟩
        unfold Undisturbed
        split
        · exact hsettled.unwritten
        · exact .inr (.inr fun publisher => by simp [hsettled.unwritten publisher])
        · trivial
      refine ⟨?_, horderly⟩
      obtain ⟨⟨client, returned⟩, hclient, heq⟩ := Option.map_eq_some_iff.1 hstep
      obtain ⟨rfl, rfl⟩ := Prod.mk.inj heq
      refine ⟨by rw [written_append, written_returned, hsettled.quiet, List.append_nil],
        hsettled.unwritten, ?_⟩
      cases stepped_of_clientStep hclient with
      | called htransport =>
          rw [List.map_nil, List.append_nil, htransport]
          exact hsettled.read
      | taken line hmove hline hpanics htransport =>
          rw [List.map_nil, List.append_nil]
          exact fun hreturned => absurd hline (hsettled.read hreturned line)
      | panicked line hmove hline hpanics =>
          rw [List.map_nil, List.append_nil]
          exact fun hreturned => absurd hline (hsettled.read hreturned line)
      | finished poll hend hnext =>
          subst hnext
          intro _
          cases poll <;> exact hend hallowed

/-- With nothing owed and no line left every record is delivered. -/
theorem Whole.complete (hprints : Prints print parse value)
    (hwhole : Whole print value trace state delivered awaited lead)
    (hunwritten : ∀ publisher, state.unwritten publisher = [])
    (hread : ∀ line, RustText.readLine state.telemetryOut
      state.client.transport.telemetryOffset ≠ .line line) : awaited = [] := by
  have hbytes := hwhole.bytes
  rw [Tailed.owed, hunwritten, hunwritten, List.append_nil, List.append_nil] at hbytes
  rcases hwhole.lead_cases with rfl | rfl
  · cases awaited with
    | nil => rfl
    | cons record later =>
        rw [List.nil_append, List.map_cons, wholeLines_cons] at hbytes
        have hreadable : Readable parse (record.line print) :=
          record.readable_line hprints (hwhole.wellFormed_awaited (List.mem_cons_self ..))
        exact absurd (readLine_of_newline hbytes hreadable.one_line hreadable.utf8) (hread _)
  · have hsplit : state.unread = [] ++ newline :: wholeLines (awaited.map (Record.line print)) :=
      hbytes
    exact absurd (readLine_of_newline hsplit (by simp) rfl) (hread _)

/-- What is delivered is what was published up to some record. -/
structure InOrder (value : Double → F64) (trace : List (Event (Record Double) F64))
    (client : Client F64) : Prop where
  telemetry : deliveredTelemetry trace client <+: (written trace).filterMap (Record.frame value)
  results : deliveredResults trace client <+: (written trace).filterMap Record.event

/-- Everything published is delivered, each kind in its order. -/
structure AllDelivered (value : Double → F64) (trace : List (Event (Record Double) F64))
    (client : Client F64) : Prop where
  telemetry : deliveredTelemetry trace client = (written trace).filterMap (Record.frame value)
  results : deliveredResults trace client = (written trace).filterMap Record.event

/-- At the end of the trace both threads have written everything, and a poll has
drained the file after that. -/
def FinallyDrained (print : Double → Bytes) (parse : Bytes → Option F64)
    (allowed : Tailed F64 → Label Double → Prop) (trace : List (Event (Record Double) F64))
    (client : Client F64) : Prop :=
  ∃ (before later : List (Event (Record Double) F64)) (middle last : Tailed F64),
    trace = before ++ later ∧ client = last.client ∧
      Run (system print parse) allowed .new before middle ∧
      (∀ publisher, middle.unwritten publisher = []) ∧
      Run (system print parse) OnlyClient middle later last ∧
      ∃ value, .returned value ∈ later

end Steps

/-- In every orderly run what is delivered is published, in order, and after a
final drain it is everything. -/
theorem delivered_of_orderly {print : Double → Bytes} {parse : Bytes → Option F64}
    {value : Double → F64} (hprints : Prints print parse value) :
    (∀ trace state, Run (system print parse) Orderly .new trace state →
      InOrder value trace state.client) ∧
    ∀ trace client, FinallyDrained print parse Orderly trace client →
      AllDelivered value trace client := by
  constructor
  · intro trace state hrun
    obtain ⟨delivered, awaited, lead, hwhole⟩ := whole_of_run hprints hrun
    constructor
    · rw [hwhole.telemetry, hwhole.published, List.filterMap_append]
      exact List.prefix_append _ _
    · rw [hwhole.results, hwhole.published, List.filterMap_append]
      exact List.prefix_append _ _
  · rintro _ _ ⟨before, later, middle, last, rfl, rfl, hbefore, hunwritten, hlater, hreturned⟩
    have hlast : Settled later last ∧
        Run (system print parse) Orderly .new (before ++ later) last := by
      refine hlater.invariant (fun later state => Settled later state ∧
        Run (system print parse) Orderly .new (before ++ later) state) ?_ ?_
      · exact ⟨⟨rfl, hunwritten, by simp⟩, by rwa [List.append_nil]⟩
      · rintro later state label next events - ⟨hsettled, hrun⟩ hallowed hstep
        obtain ⟨hnext, horderly⟩ := hsettled.step hallowed hstep
        rw [← List.append_assoc]
        exact ⟨hnext, hrun.step horderly hstep⟩
    obtain ⟨hsettled, hrun⟩ := hlast
    obtain ⟨delivered, awaited, lead, hwhole⟩ := whole_of_run hprints hrun
    have hall := hwhole.complete hprints hsettled.unwritten (hsettled.read hreturned)
    have hpublished := hwhole.published
    rw [hall, List.append_nil] at hpublished
    exact ⟨by rw [hwhole.telemetry, hpublished], by rw [hwhole.results, hpublished]⟩

/-! ## Two runs -/

instance decidableForallPublisher {holds : Publisher → Prop}
    [∀ publisher, Decidable (holds publisher)] :
    Decidable (∀ publisher, holds publisher) :=
  decidable_of_iff (holds .control ∧ holds .sensor)
    ⟨fun hboth publisher => publisher.casesOn hboth.1 hboth.2,
      fun hall => ⟨hall .control, hall .sensor⟩⟩

instance : (record : Record Double) → Decidable record.WellFormed
  | .result _ outcome => inferInstanceAs (Decidable
      (Utf8.valid outcome.message = true ∧ newline ∉ outcome.message ∧ Trimmed outcome.message))
  | .telemetry frame joints => inferInstanceAs (Decidable
      ((∀ text ∈ freeTexts frame joints, OneField text ∧ Utf8.valid text = true) ∧
        (∀ sensor ∈ sensorFields frame, Utf8.valid sensor.2.2 = true) ∧ InMemory frame joints))

instance (state : Tailed F64) :
    (label : Label Double) → Decidable (PublishesWellFormed state label)
  | .begin record _ => inferInstanceAs (Decidable record.WellFormed)
  | .resume _ _ | .client _ => inferInstanceAs (Decidable True)

instance (state : Tailed F64) : (label : Label Double) → Decidable (Undisturbed state label)
  | .begin _ _ => inferInstanceAs (Decidable (∀ publisher, state.unwritten publisher = []))
  | .client (.read true) => inferInstanceAs (Decidable
      (newline ∈ state.unread ∨ Utf8.valid state.unread = false ∨
        ∀ publisher, state.unwritten publisher <:+ [newline]))
  | .resume _ _ | .client (.call _ _) | .client (.read false) => inferInstanceAs (Decidable True)

instance (state : Tailed F64) (label : Label Double) : Decidable (Orderly state label) :=
  inferInstanceAs (Decidable (_ ∧ _))

instance (state : Tailed F64) : (label : Label Double) → Decidable (OnlyClient state label)
  | .begin _ _ | .resume _ _ => inferInstanceAs (Decidable False)
  | .client move => inferInstanceAs (Decidable (move.ok = true))

/-- What a run in two parts shows: the two traces, what is owed between them and
the client at the end. -/
structure Shown (Double F64 : Type) where
  before : List (Event (Record Double) F64)
  owed : Bytes
  later : List (Event (Record Double) F64)
  client : Client F64
  deriving DecidableEq

def shown (print : Double → Bytes) (parse : Bytes → Option F64)
    (allowed : Tailed F64 → Label Double → Prop)
    [∀ state label, Decidable (allowed state label)] (first second : List (Label Double)) :
    Option (Shown Double F64) :=
  (execute (system print parse) allowed .new first).bind fun (middle, before) =>
    (execute (system print parse) OnlyClient middle second).map fun (last, later) =>
      { before, owed := middle.owed, later, client := last.client }

theorem finallyDrained_of_shown {print : Double → Bytes} {parse : Bytes → Option F64}
    {allowed : Tailed F64 → Label Double → Prop}
    [∀ state label, Decidable (allowed state label)] {first second : List (Label Double)}
    {before later : List (Event (Record Double) F64)} {client : Client F64}
    (hshown : shown print parse allowed first second =
      some { before, owed := [], later, client })
    (hreturned : ∃ value, .returned value ∈ later) :
    FinallyDrained print parse allowed (before ++ later) client := by
  obtain ⟨⟨middle, reached⟩, hfirst, hresult⟩ := Option.bind_eq_some_iff.1 hshown
  obtain ⟨⟨last, result⟩, hsecond, heq⟩ := Option.map_eq_some_iff.1 hresult
  simp only [Shown.mk.injEq] at heq
  obtain ⟨rfl, howed, rfl, rfl⟩ := heq
  obtain ⟨hcontrol, hsensor⟩ := List.append_eq_nil_iff.1 howed
  exact ⟨_, _, middle, last, rfl, rfl, run_of_execute hfirst,
    fun publisher => publisher.casesOn hcontrol hsensor, run_of_execute hsecond, hreturned⟩

private def sweepOf (id : Bytes) : SensorFrame where
  timestampNs := 7
  ids := [id]
  types := [ascii "rgb"]
  payloads := [[]]

private def latched : CommandResult where
  status := .rejected
  rejectReason := .unsafeCommand
  message := ascii "estop"

private def clientAt (offset : ℕ) (pending : List (TelemetryFrame UInt64)) : Client UInt64 where
  transport := { telemetryOffset := offset, pendingTelemetry := pending, pendingResults := [] }
  phase := .idle

/-- A frame in two writes that the client waits for, and a result in one. -/
theorem delivered_in_turn :
    ∃ trace client, FinallyDrained printWhole parseWhole Orderly trace client ∧
      written trace = [.telemetry (sweepOf (ascii "front")) [], .result 12 latched] ∧
      AllDelivered id trace client := by
  have hdrained : FinallyDrained printWhole parseWhole Orderly
      ([.written (.telemetry (sweepOf (ascii "front")) []), .returned (.telemetry []),
        .written (.result 12 latched)] ++ [.returned (.results [receivedResult 12 latched])])
      (clientAt 34 [receivedFrame id (sweepOf (ascii "front")) []]) :=
    finallyDrained_of_shown
      (show shown printWhole parseWhole Orderly
        [.begin (.telemetry (sweepOf (ascii "front")) []) 11, .client (.call .telemetry true),
          .client (.read false), .resume .sensor 20, .begin (.result 12 latched) 100]
        [.client (.call .results true), .client (.read true), .client (.read true),
          .client (.read true)] = _ by decide +kernel)
      ⟨_, List.mem_singleton_self _⟩
  exact ⟨_, _, hdrained, rfl, (delivered_of_orderly prints_whole).2 _ _ hdrained⟩

/-- A sensor id of 1024 bytes fills the stream's buffer.  The client polls between
the two writes of the record, and the frame is lost. -/
theorem frame_lost :
    ∃ trace client, FinallyDrained printWhole parseWhole PublishesWellFormed trace client ∧
      written trace = [.telemetry (sweepOf (List.replicate 1024 97)) []] ∧
      ¬ AllDelivered id trace client := by
  have hdrained : FinallyDrained printWhole parseWhole PublishesWellFormed
      ([.written (.telemetry (sweepOf (List.replicate 1024 97)) []),
        .returned (.telemetry [])] ++ [.returned (.telemetry [])])
      (clientAt 1038 []) :=
    finallyDrained_of_shown
      (show shown printWhole parseWhole PublishesWellFormed
        [.begin (.telemetry (sweepOf (List.replicate 1024 97)) []) 1031,
          .client (.call .telemetry true), .client (.read true), .client (.read true),
          .resume .sensor 5]
        [.client (.call .telemetry true), .client (.read true), .client (.read true)] = _ by
        decide +kernel)
      ⟨_, List.mem_singleton_self _⟩
  refine ⟨_, _, hdrained, rfl, fun hall => ?_⟩
  exact absurd hall.telemetry.symm (List.cons_ne_nil _ _)

end ArcravenUgv.Tailing
