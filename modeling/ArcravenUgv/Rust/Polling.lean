import ArcravenUgv.Lib.Runs
import ArcravenUgv.Rust.Drain

/-!
# Polling `telemetry.out`

`receive_telemetry` and `receive_command_results` of the Rust client while lines
are appended to the file.  A poll opens the file, reads a line at a time and at
the end takes the buffer it is about; the file may grow between any two of these.
-/

namespace ArcravenUgv.Polling

open ArcravenUgv.Command
open ArcravenUgv.Decimal
open ArcravenUgv.Delimited
open ArcravenUgv.CommandLine
open ArcravenUgv.RustText
open ArcravenUgv.RustRecords
open ArcravenUgv.RoundTrip
open ArcravenUgv.Drain
open ArcravenUgv.Runs

variable {Written F64 : Type}

/-! ## The client -/

/-- `receive_telemetry` or `receive_command_results`. -/
inductive Poll
  | telemetry
  | results
  deriving DecidableEq, Repr

inductive Phase
  | idle
  | draining (poll : Poll)
  | panicked
  deriving DecidableEq, Repr

structure Client (F64 : Type) where
  transport : Iceoryx2Transport F64
  phase : Phase
  deriving DecidableEq, Repr

def Client.new : Client F64 where
  transport := Iceoryx2Transport.new
  phase := .idle

/-- Calling a poll, with the outcome of opening the file, and one `read_line`,
with the outcome of the system calls below it. -/
inductive Move
  | call (poll : Poll) (ok : Bool)
  | read (ok : Bool)
  deriving DecidableEq, Repr

def Move.ok : Move → Bool
  | .call _ ok => ok
  | .read ok => ok

/-- What a poll returned. -/
inductive Returned (F64 : Type)
  | telemetry (frames : List (TelemetryFrame F64))
  | results (results : List CommandResultEvent)
  deriving DecidableEq, Repr

/-- `std::mem::take` of the buffer the poll is about. -/
def Client.finish (transport : Iceoryx2Transport F64) : Poll → Client F64 × List (Returned F64)
  | .telemetry =>
      ({ transport := { transport with pendingTelemetry := [] }, phase := .idle },
        [.telemetry transport.pendingTelemetry])
  | .results =>
      ({ transport := { transport with pendingResults := [] }, phase := .idle },
        [.results transport.pendingResults])

def clientStep (parse : Bytes → Option F64) (file : Bytes) (client : Client F64) (move : Move) :
    Option (Client F64 × List (Returned F64)) :=
  match client.phase, move with
  | .idle, .call poll ok =>
      if ok then some ({ client with phase := .draining poll }, [])
      else some (Client.finish client.transport poll)
  | .draining poll, .read ok =>
      if ok then
        match RustText.readLine file client.transport.telemetryOffset with
        | .line line =>
            match drainLine parse client.transport line with
            | (next, true) => some ({ transport := next, phase := .panicked }, [])
            | (next, false) => some ({ transport := next, phase := .draining poll }, [])
        | _ => some (Client.finish client.transport poll)
      else some (Client.finish client.transport poll)
  | _, _ => none

/-- What has been written and what the polls have returned. -/
inductive Event (Written F64 : Type)
  | written (what : Written)
  | returned (value : Returned F64)
  deriving DecidableEq

def written (trace : List (Event Written F64)) : List Written :=
  trace.filterMap fun
    | .written what => some what
    | .returned _ => none

def returnedTelemetry (trace : List (Event Written F64)) : List (TelemetryFrame F64) :=
  trace.flatMap fun
    | .returned (.telemetry frames) => frames
    | _ => []

def returnedResults (trace : List (Event Written F64)) : List CommandResultEvent :=
  trace.flatMap fun
    | .returned (.results results) => results
    | _ => []

/-- The frames that were returned or wait in the buffer. -/
def deliveredTelemetry (trace : List (Event Written F64)) (client : Client F64) :
    List (TelemetryFrame F64) :=
  returnedTelemetry trace ++ client.transport.pendingTelemetry

def deliveredResults (trace : List (Event Written F64)) (client : Client F64) :
    List CommandResultEvent :=
  returnedResults trace ++ client.transport.pendingResults

/-! ## One step of the client -/

/-- What a step of the client has done to its transport. -/
inductive Stepped (parse : Bytes → Option F64) (file : Bytes) (client : Client F64)
    (move : Move) (next : Client F64) : List (Returned F64) → Prop
  | called (htransport : next.transport = client.transport) :
      Stepped parse file client move next []
  | taken (line : Bytes) (hmove : move = .read true)
      (hline : RustText.readLine file client.transport.telemetryOffset = .line line)
      (hpanics : ¬ Panics parse line)
      (htransport : next.transport = client.transport.take parse line) :
      Stepped parse file client move next []
  | panicked (line : Bytes) (hmove : move = .read true)
      (hline : RustText.readLine file client.transport.telemetryOffset = .line line)
      (hpanics : Panics parse line) :
      Stepped parse file client move next []
  | finished (poll : Poll)
      (hend : move.ok = true →
        ∀ line, RustText.readLine file client.transport.telemetryOffset ≠ .line line)
      (hnext : next = (Client.finish client.transport poll).1) :
      Stepped parse file client move next (Client.finish client.transport poll).2

theorem stepped_of_clientStep {parse : Bytes → Option F64} {file : Bytes} {client next : Client F64}
    {move : Move} {returned : List (Returned F64)}
    (hstep : clientStep parse file client move = some (next, returned)) :
    Stepped parse file client move next returned := by
  unfold clientStep at hstep
  split at hstep
  · rename_i poll ok _
    split_ifs at hstep with hok
    · obtain ⟨rfl, rfl⟩ := Prod.mk.inj (Option.some.inj hstep)
      exact .called rfl
    · obtain ⟨rfl, rfl⟩ := Prod.mk.inj (Option.some.inj hstep)
      exact .finished poll (fun h => absurd h hok) rfl
  · rename_i poll ok _
    split_ifs at hstep with hok
    · split at hstep
      · rename_i line hline
        by_cases hpanics : Panics parse line
        · rw [drainLine_of_panics hpanics] at hstep
          obtain ⟨rfl, rfl⟩ := Prod.mk.inj (Option.some.inj hstep)
          exact .panicked line (by rw [hok]) hline hpanics
        · rw [drainLine_of_not_panics hpanics] at hstep
          obtain ⟨rfl, rfl⟩ := Prod.mk.inj (Option.some.inj hstep)
          exact .taken line (by rw [hok]) hline hpanics rfl
      · rename_i hline
        obtain ⟨rfl, rfl⟩ := Prod.mk.inj (Option.some.inj hstep)
        exact .finished poll (fun _ => hline) rfl
    · obtain ⟨rfl, rfl⟩ := Prod.mk.inj (Option.some.inj hstep)
      exact .finished poll (fun h => absurd h hok) rfl
  · cases hstep

section Traces

variable {trace events : List (Event Written F64)} {client : Client F64}

@[simp]
theorem written_append : written (trace ++ events) = written trace ++ written events :=
  List.filterMap_append

@[simp]
theorem written_returned (values : List (Returned F64)) :
    written (values.map .returned : List (Event Written F64)) = [] := by
  induction values with
  | nil => rfl
  | cons value values ih => exact ih

@[simp]
theorem deliveredTelemetry_written (what : Written) :
    deliveredTelemetry (trace ++ [.written what]) client = deliveredTelemetry trace client := by
  simp [deliveredTelemetry, returnedTelemetry]

@[simp]
theorem deliveredResults_written (what : Written) :
    deliveredResults (trace ++ [.written what]) client = deliveredResults trace client := by
  simp [deliveredResults, returnedResults]

/-- What a step of the client that takes no line leaves as it was. -/
structure NothingTaken (trace : List (Event Written F64)) (client next : Client F64)
    (returned : List (Returned F64)) : Prop where
  offset : next.transport.telemetryOffset = client.transport.telemetryOffset
  written : written (trace ++ returned.map .returned) = written trace
  telemetry : deliveredTelemetry (trace ++ returned.map .returned) next =
    deliveredTelemetry trace client
  results : deliveredResults (trace ++ returned.map .returned) next =
    deliveredResults trace client

/-- Returning a buffer delivers nothing new. -/
theorem nothingTaken_finish (trace : List (Event Written F64)) (client : Client F64)
    (poll : Poll) :
    NothingTaken trace client (Client.finish client.transport poll).1
      (Client.finish client.transport poll).2 := by
  cases poll with
  | telemetry =>
      exact ⟨rfl, by simp, by simp [deliveredTelemetry, returnedTelemetry, Client.finish],
        by simp [deliveredResults, returnedResults, Client.finish]⟩
  | results =>
      exact ⟨rfl, by simp, by simp [deliveredTelemetry, returnedTelemetry, Client.finish],
        by simp [deliveredResults, returnedResults, Client.finish]⟩

/-- A step of the client takes a line, panics on one or changes nothing of what
is delivered. -/
theorem Stepped.taken_or_nothing {parse : Bytes → Option F64} {file : Bytes}
    {next : Client F64} {move : Move} {returned : List (Returned F64)}
    (hstepped : Stepped parse file client move next returned)
    (trace : List (Event Written F64)) :
    (∃ line, move = .read true ∧ returned = [] ∧
      RustText.readLine file client.transport.telemetryOffset = .line line ∧
        (Panics parse line ∨ next.transport = client.transport.take parse line)) ∨
      NothingTaken trace client next returned := by
  cases hstepped with
  | called htransport =>
      refine .inr ⟨by rw [htransport], by simp, ?_, ?_⟩
      · rw [List.map_nil, List.append_nil, deliveredTelemetry, htransport, deliveredTelemetry]
      · rw [List.map_nil, List.append_nil, deliveredResults, htransport, deliveredResults]
  | taken line hmove hline hpanics htransport =>
      exact .inl ⟨line, hmove, rfl, hline, .inr htransport⟩
  | panicked line hmove hline hpanics =>
      exact .inl ⟨line, hmove, rfl, hline, .inl hpanics⟩
  | finished poll hend hnext =>
      subst hnext
      exact .inr (nothingTaken_finish trace client poll)

/-- Taking a line delivers what it holds. -/
theorem delivered_take {parse : Bytes → Option F64} {next : Client F64} {line : Bytes}
    (htransport : next.transport = client.transport.take parse line) :
    deliveredTelemetry trace next =
        deliveredTelemetry trace client ++ (frameOf parse line).toList ∧
      deliveredResults trace next = deliveredResults trace client ++ (resultOf line).toList := by
  simp [deliveredTelemetry, deliveredResults, htransport, Iceoryx2Transport.take]

theorem filterMap_concat {A B : Type} (f : A → Option B) (items : List A) (item : A) :
    (items ++ [item]).filterMap f = items.filterMap f ++ (f item).toList := by
  cases hitem : f item <;> simp [hitem]

end Traces

/-! ## Whole lines appended -/

/-- `telemetry.out` and one client. -/
structure Watched (F64 : Type) where
  telemetryOut : Bytes
  client : Client F64

inductive Label
  | append (line : Bytes)
  | client (move : Move)

def step (parse : Bytes → Option F64) (state : Watched F64) :
    Label → Option (Watched F64 × List (Event Bytes F64))
  | .append line =>
      some ({ state with telemetryOut := state.telemetryOut ++ (line ++ [newline]) },
        [.written line])
  | .client move =>
      (clientStep parse state.telemetryOut state.client move).map fun (client, returned) =>
        ({ state with client }, returned.map .returned)

def system (parse : Bytes → Option F64) : System (Watched F64) Label (Event Bytes F64) where
  step := step parse

def Watched.new : Watched F64 where
  telemetryOut := []
  client := Client.new

/-- One line of UTF-8 on which `parse_telemetry_line` does not panic. -/
structure Readable (parse : Bytes → Option F64) (line : Bytes) : Prop where
  one_line : newline ∉ line
  utf8 : Utf8.valid line = true
  returns : ¬ Panics parse line

/-- Only readable lines are appended. -/
def AppendsReadable (parse : Bytes → Option F64) (_ : Watched F64) : Label → Prop
  | .append line => Readable parse line
  | .client _ => True

/-- The client moves, and no system call of its fails. -/
def OnlyPolls (_ : Watched F64) : Label → Prop
  | .append _ => False
  | .client move => move.ok = true

def wholeLines (lines : List Bytes) : Bytes := lines.flatMap fun line => line ++ [newline]

theorem wholeLines_append (left right : List Bytes) :
    wholeLines (left ++ right) = wholeLines left ++ wholeLines right :=
  List.flatMap_append

theorem wholeLines_singleton (line : Bytes) : wholeLines [line] = line ++ [newline] :=
  List.flatMap_singleton ..

theorem wholeLines_cons (line : Bytes) (lines : List Bytes) :
    wholeLines (line :: lines) = line ++ newline :: wholeLines lines := by
  simp [wholeLines]

/-- The lines up to the offset are consumed, and what was returned and what is
pending is what these lines hold. -/
structure Accounted (parse : Bytes → Option F64) (trace : List (Event Bytes F64))
    (state : Watched F64) (consumed : List Bytes) : Prop where
  in_order : consumed <+: written trace
  file : state.telemetryOut = wholeLines (written trace)
  offset : state.client.transport.telemetryOffset = (wholeLines consumed).length
  telemetry : deliveredTelemetry trace state.client = consumed.filterMap (frameOf parse)
  results : deliveredResults trace state.client = consumed.filterMap resultOf

/-- Both polls return after the last append, with no failing system call from
there on. -/
def PolledLast (parse : Bytes → Option F64) (trace : List (Event Bytes F64)) : Prop :=
  ∃ (before later : List (Event Bytes F64)) (middle last : Watched F64),
    trace = before ++ later ∧
      Run (system parse) (AppendsReadable parse) .new before middle ∧
      Run (system parse) OnlyPolls middle later last ∧
      (∃ frames, .returned (.telemetry frames) ∈ later) ∧
      ∃ results, .returned (.results results) ∈ later

section Steps

variable {parse : Bytes → Option F64} {trace : List (Event Bytes F64)} {state : Watched F64}
variable {consumed : List Bytes}

theorem frameOf_append_newline (line : Bytes) :
    frameOf parse (line ++ [newline]) = frameOf parse line := by
  rw [frameOf, trimEnd_append_newline, frameOf]

theorem resultOf_append_newline (line : Bytes) :
    resultOf (line ++ [newline]) = resultOf line := by
  rw [resultOf, trimEnd_append_newline, resultOf]

theorem panics_append_newline {line : Bytes} :
    Panics parse (line ++ [newline]) ↔ Panics parse line := by
  rw [Panics, trimEnd_append_newline, Panics]

/-- The unread bytes are the lines that are not consumed. -/
theorem Accounted.unread (haccounted : Accounted parse trace state consumed)
    {rest : List Bytes} (hrest : consumed ++ rest = written trace) :
    state.telemetryOut.drop state.client.transport.telemetryOffset = wholeLines rest := by
  rw [haccounted.file, haccounted.offset, ← hrest, wholeLines_append, List.drop_left]

/-- The client reads the next line, or nothing is left. -/
theorem Accounted.readLine_eq (haccounted : Accounted parse trace state consumed)
    (hreadable : ∀ line ∈ written trace, Readable parse line) :
    (consumed = written trace ∧ RustText.readLine state.telemetryOut
        state.client.transport.telemetryOffset = .endOfFile) ∨
      ∃ line, Readable parse line ∧ consumed ++ [line] <+: written trace ∧
        RustText.readLine state.telemetryOut state.client.transport.telemetryOffset =
          .line (line ++ [newline]) := by
  obtain ⟨rest, hrest⟩ := haccounted.in_order
  have hunread := haccounted.unread hrest
  cases rest with
  | nil => exact .inl ⟨by simpa using hrest, readLine_of_end hunread⟩
  | cons line rest =>
      have hline : Readable parse line := hreadable line (by simp [← hrest])
      refine .inr ⟨line, hline, ⟨rest, by simpa using hrest⟩, ?_⟩
      rw [wholeLines_cons] at hunread
      exact readLine_of_newline hunread hline.one_line hline.utf8

theorem Accounted.append (haccounted : Accounted parse trace state consumed) (line : Bytes) :
    Accounted parse (trace ++ [.written line])
      { state with telemetryOut := state.telemetryOut ++ (line ++ [newline]) } consumed where
  in_order := by
    rw [written_append]
    exact haccounted.in_order.trans (List.prefix_append _ _)
  file := by
    rw [written_append, wholeLines_append, ← haccounted.file]
    simp [written, wholeLines]
  offset := haccounted.offset
  telemetry := (deliveredTelemetry_written line).trans haccounted.telemetry
  results := (deliveredResults_written line).trans haccounted.results

/-- A step of the client consumes one line or none. -/
theorem Accounted.stepped {move : Move} {client : Client F64} {returned : List (Returned F64)}
    (haccounted : Accounted parse trace state consumed)
    (hreadable : ∀ line ∈ written trace, Readable parse line)
    (hstepped : Stepped parse state.telemetryOut state.client move client returned) :
    ∃ consumed,
      Accounted parse (trace ++ returned.map .returned) { state with client } consumed := by
  rcases hstepped.taken_or_nothing trace with ⟨text, -, rfl, htext, htaken⟩ | hnothing
  · rcases haccounted.readLine_eq hreadable with ⟨-, hend⟩ | ⟨line, hline, hprefix, hread⟩
    · rw [hend] at htext
      cases htext
    · obtain rfl := ReadLine.line.inj (hread.symm.trans htext)
      have htransport := htaken.resolve_left fun hpanics =>
        hline.returns (panics_append_newline.1 hpanics)
      refine ⟨consumed ++ [line], ?_⟩
      rw [List.map_nil, List.append_nil]
      exact {
        in_order := hprefix
        file := haccounted.file
        offset := by
          rw [htransport, wholeLines_append, List.length_append, ← haccounted.offset]
          simp [Iceoryx2Transport.take, wholeLines]
        telemetry := by
          rw [filterMap_concat, ← haccounted.telemetry, ← frameOf_append_newline line]
          exact (delivered_take htransport).1
        results := by
          rw [filterMap_concat, ← haccounted.results, ← resultOf_append_newline line]
          exact (delivered_take htransport).2 }
  · exact ⟨consumed, {
      in_order := by rw [hnothing.written]; exact haccounted.in_order
      file := by rw [hnothing.written]; exact haccounted.file
      offset := hnothing.offset.trans haccounted.offset
      telemetry := hnothing.telemetry.trans haccounted.telemetry
      results := hnothing.results.trans haccounted.results }⟩

/-- What every reachable state keeps. -/
def Kept (parse : Bytes → Option F64) (trace : List (Event Bytes F64)) (state : Watched F64) :
    Prop :=
  (∀ line ∈ written trace, Readable parse line) ∧ ∃ consumed, Accounted parse trace state consumed

theorem Kept.step {label : Label} {next : Watched F64} {events : List (Event Bytes F64)}
    (hkept : Kept parse trace state) (hallowed : AppendsReadable parse state label)
    (hstep : step parse state label = some (next, events)) :
    Kept parse (trace ++ events) next := by
  obtain ⟨hreadable, consumed, haccounted⟩ := hkept
  cases label with
  | append line =>
      obtain ⟨rfl, rfl⟩ := Prod.mk.inj (Option.some.inj hstep)
      refine ⟨fun other hother => ?_, consumed, haccounted.append line⟩
      rw [written_append, List.mem_append] at hother
      rcases hother with hother | hother
      · exact hreadable other hother
      · obtain rfl := List.mem_singleton.1 hother
        exact hallowed
  | client move =>
      obtain ⟨⟨client, returned⟩, hclient, heq⟩ := Option.map_eq_some_iff.1 hstep
      obtain ⟨rfl, rfl⟩ := Prod.mk.inj heq
      refine ⟨?_, haccounted.stepped hreadable (stepped_of_clientStep hclient)⟩
      rwa [written_append, written_returned, List.append_nil]

theorem kept_of_run (hrun : Run (system parse) (AppendsReadable parse) .new trace state) :
    Kept parse trace state := by
  refine hrun.invariant (Kept parse) ⟨by simp [written], [], ?_⟩ ?_
  · exact ⟨List.prefix_rfl, rfl, rfl, rfl, rfl⟩
  · intro trace state label next events _ hkept hallowed hstep
    exact hkept.step hallowed hstep

/-- Once a poll has returned everything is read and its buffer is empty. -/
structure Emptied (later : List (Event Bytes F64)) (state : Watched F64) : Prop where
  telemetry : (∃ frames, .returned (.telemetry frames) ∈ later) →
    (∀ line, RustText.readLine state.telemetryOut
      state.client.transport.telemetryOffset ≠ .line line) ∧
      state.client.transport.pendingTelemetry = []
  results : (∃ results, .returned (.results results) ∈ later) →
    (∀ line, RustText.readLine state.telemetryOut
      state.client.transport.telemetryOffset ≠ .line line) ∧
      state.client.transport.pendingResults = []

theorem Emptied.step {later events : List (Event Bytes F64)} {label : Label} {next : Watched F64}
    (hemptied : Emptied later state) (hallowed : OnlyPolls state label)
    (hstep : Polling.step parse state label = some (next, events)) :
    Emptied (later ++ events) next := by
  cases label with
  | append line => cases hallowed
  | client move =>
      obtain ⟨⟨client, returned⟩, hclient, heq⟩ := Option.map_eq_some_iff.1 hstep
      obtain ⟨rfl, rfl⟩ := Prod.mk.inj heq
      cases stepped_of_clientStep hclient with
      | called htransport =>
          rw [List.map_nil, List.append_nil]
          exact ⟨by rw [htransport]; exact hemptied.telemetry,
            by rw [htransport]; exact hemptied.results⟩
      | taken line hmove hline hpanics htransport | panicked line hmove hline hpanics =>
          rw [List.map_nil, List.append_nil]
          exact ⟨fun hreturned => absurd hline ((hemptied.telemetry hreturned).1 line),
            fun hreturned => absurd hline ((hemptied.results hreturned).1 line)⟩
      | finished poll hend hnext =>
          subst hnext
          cases poll with
          | telemetry =>
              refine ⟨fun _ => ⟨hend hallowed, rfl⟩, fun hreturned => ⟨hend hallowed, ?_⟩⟩
              exact (hemptied.results (by simpa [Client.finish] using hreturned)).2
          | results =>
              refine ⟨fun hreturned => ⟨hend hallowed, ?_⟩, fun _ => ⟨hend hallowed, rfl⟩⟩
              exact (hemptied.telemetry (by simpa [Client.finish] using hreturned)).2

/-- After the last append two polls return everything there is. -/
theorem returned_of_polledLast (hpolled : PolledLast parse trace) :
    returnedTelemetry trace = (written trace).filterMap (frameOf parse) ∧
      returnedResults trace = (written trace).filterMap resultOf := by
  obtain ⟨before, later, middle, last, rfl, hbefore, hlater, htelemetry, hresults⟩ := hpolled
  have hlast : Run (system parse) (AppendsReadable parse) .new (before ++ later) last := by
    refine hbefore.append (hlater.mono fun _ label hpolls => ?_)
    cases label with
    | append line => cases hpolls
    | client move => trivial
  have hemptied : Emptied later last := by
    refine hlater.invariant Emptied ⟨by simp, by simp⟩ ?_
    intro later state label next events _ hemptied hallowed hstep
    exact hemptied.step hallowed hstep
  obtain ⟨hnoLine, hnoFrames⟩ := hemptied.telemetry htelemetry
  obtain ⟨-, hnoResults⟩ := hemptied.results hresults
  obtain ⟨hreadable, consumed, haccounted⟩ := kept_of_run hlast
  rcases haccounted.readLine_eq hreadable with ⟨rfl, -⟩ | ⟨line, -, -, hline⟩
  · constructor
    · rw [← haccounted.telemetry, deliveredTelemetry, hnoFrames, List.append_nil]
    · rw [← haccounted.results, deliveredResults, hnoResults, List.append_nil]
  · exact absurd hline (hnoLine _)

end Steps

/-- What was returned and what is pending is always what the consumed lines hold,
and two schedules that end with both polls return the same. -/
theorem polls_deliver (parse : Bytes → Option F64) :
    (∀ trace state, Run (system parse) (AppendsReadable parse) .new trace state →
      ∃ consumed, Accounted parse trace state consumed) ∧
    ∀ left right : List (Event Bytes F64), PolledLast parse left → PolledLast parse right →
      written left = written right →
        returnedTelemetry left = returnedTelemetry right ∧
          returnedResults left = returnedResults right ∧
          returnedTelemetry left = (written left).filterMap (frameOf parse) ∧
          returnedResults left = (written left).filterMap resultOf := by
  constructor
  · intro trace state hrun
    exact (kept_of_run hrun).2
  · intro left right hleft hright hsame
    obtain ⟨hleftTelemetry, hleftResults⟩ := returned_of_polledLast hleft
    obtain ⟨hrightTelemetry, hrightResults⟩ := returned_of_polledLast hright
    refine ⟨?_, ?_, hleftTelemetry, hleftResults⟩
    · rw [hleftTelemetry, hrightTelemetry, hsame]
    · rw [hleftResults, hrightResults, hsame]

/-! ## Two schedules -/

instance [DecidableEq F64] (parse : Bytes → Option F64) (line : Bytes) :
    Decidable (Readable parse line) :=
  decidable_of_iff (newline ∉ line ∧ Utf8.valid line = true ∧ ¬ Panics parse line)
    ⟨fun ⟨hline, hutf8, hreturns⟩ => ⟨hline, hutf8, hreturns⟩,
      fun ⟨hline, hutf8, hreturns⟩ => ⟨hline, hutf8, hreturns⟩⟩

instance [DecidableEq F64] (parse : Bytes → Option F64) (state : Watched F64) :
    (label : Label) → Decidable (AppendsReadable parse state label)
  | .append line => inferInstanceAs (Decidable (Readable parse line))
  | .client _ => inferInstanceAs (Decidable True)

instance (state : Watched F64) : (label : Label) → Decidable (OnlyPolls state label)
  | .append _ => inferInstanceAs (Decidable False)
  | .client move => inferInstanceAs (Decidable (move.ok = true))

theorem polledLast_of_execute [DecidableEq F64] {parse : Bytes → Option F64}
    {first second : List Label} {before later : List (Event Bytes F64)}
    (hexecute : ((execute (system parse) (AppendsReadable parse) .new first).bind fun reached =>
      (execute (system parse) OnlyPolls reached.1 second).map fun result =>
        (reached.2, result.2)) = some (before, later))
    (htelemetry : ∃ frames, .returned (.telemetry frames) ∈ later)
    (hresults : ∃ results, .returned (.results results) ∈ later) :
    PolledLast parse (before ++ later) := by
  obtain ⟨⟨middle, reached⟩, hfirst, hresult⟩ := Option.bind_eq_some_iff.1 hexecute
  obtain ⟨⟨last, result⟩, hsecond, heq⟩ := Option.map_eq_some_iff.1 hresult
  obtain ⟨rfl, rfl⟩ := Prod.mk.inj heq
  exact ⟨_, _, middle, last, rfl, run_of_execute hfirst, run_of_execute hsecond, htelemetry,
    hresults⟩

private def emptyFrame : TelemetryFrame UInt64 where
  timestampNs := 7
  joints := []
  sensors := []
  payloads := []

private def succeeded : CommandResultEvent where
  commandId := 1
  result := { status := .succeeded, rejectReason := .none, message := ascii "ok" }

/-- A frame and a result: read as they come, and read at the end. -/
theorem polls_deliver_interleaved :
    ∃ left right : List (Event Bytes UInt64),
      left = [.written (ascii "T|7|0|0"), .written (ascii "R|1|5|0|ok"),
        .returned (.telemetry [emptyFrame]), .returned (.results [succeeded])] ∧
      right = [.returned (.results []), .written (ascii "T|7|0|0"), .written (ascii "R|1|5|0|ok"),
        .returned (.results [succeeded]), .returned (.telemetry [emptyFrame])] ∧
      PolledLast parseWhole left ∧ PolledLast parseWhole right ∧
      returnedTelemetry left = returnedTelemetry right ∧
      returnedResults left = returnedResults right := by
  have hleft : PolledLast parseWhole ([.written (ascii "T|7|0|0"), .written (ascii "R|1|5|0|ok")] ++
      [.returned (.telemetry [emptyFrame]), .returned (.results [succeeded])]) :=
    polledLast_of_execute
      (show ((execute (system parseWhole) (AppendsReadable parseWhole) .new
        [.append (ascii "T|7|0|0"), .client (.call .telemetry true), .client (.read true),
          .append (ascii "R|1|5|0|ok")]).bind fun reached =>
        (execute (system parseWhole) OnlyPolls reached.1
          [.client (.read true), .client (.read true), .client (.call .results true),
            .client (.read true)]).map fun result => (reached.2, result.2)) = _ by decide +kernel)
      ⟨[emptyFrame], by simp⟩ ⟨[succeeded], by simp⟩
  have hright : PolledLast parseWhole ([.returned (.results []), .written (ascii "T|7|0|0"),
      .written (ascii "R|1|5|0|ok")] ++
      [.returned (.results [succeeded]), .returned (.telemetry [emptyFrame])]) :=
    polledLast_of_execute
      (show ((execute (system parseWhole) (AppendsReadable parseWhole) .new
        [.client (.call .results true), .client (.read true), .append (ascii "T|7|0|0"),
          .append (ascii "R|1|5|0|ok")]).bind fun reached =>
        (execute (system parseWhole) OnlyPolls reached.1
          [.client (.call .results true), .client (.read true), .client (.read true),
            .client (.read true), .client (.call .telemetry true), .client (.read true)]).map
          fun result => (reached.2, result.2)) = _ by decide +kernel)
      ⟨[emptyFrame], by simp⟩ ⟨[succeeded], by simp⟩
  obtain ⟨htelemetry, hresults, -⟩ := (polls_deliver parseWhole).2 _ _ hleft hright rfl
  exact ⟨_, _, rfl, rfl, hleft, hright, htelemetry, hresults⟩

end ArcravenUgv.Polling
