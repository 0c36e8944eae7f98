import ArcravenUgv.Config.Verdicts
import ArcravenUgv.Lib.Simulation
import ArcravenUgv.Rust.Tailing

/-!
# The core and a client that polls it

The threads of the core run while a Rust client reads `telemetry.out` as it
grows.  Seen from the client this is the file of `Rust.Polling`; seen from the
core the client is not there.
-/

namespace ArcravenUgv.Observer

open ArcravenUgv.Enums
open ArcravenUgv.Command
open ArcravenUgv.Command.CommandRouter
open ArcravenUgv.Decimal
open ArcravenUgv.Delimited
open ArcravenUgv.CommandLine
open ArcravenUgv.Bridge
open ArcravenUgv.Handlers
open ArcravenUgv.RustText
open ArcravenUgv.RustRecords
open ArcravenUgv.RoundTrip
open ArcravenUgv.Drain
open ArcravenUgv.Runs
open ArcravenUgv.Runtime
open ArcravenUgv.Acknowledge
open ArcravenUgv.Verdicts
open ArcravenUgv.Polling (Client Move Returned Readable wholeLines deliveredTelemetry
  deliveredResults returnedTelemetry returnedResults clientStep)

variable {F64 : Type}

/-! ## The two together -/

structure Session (F64 : Type) where
  core : Core
  client : Client F64

inductive Label
  | core (label : Thread × World)
  | poll (move : Move)
  deriving DecidableEq, Repr

inductive SessionEvent (F64 : Type)
  | core (event : Event)
  | returned (value : Returned F64)
  deriving DecidableEq

/-- The client reads what the core has appended so far. -/
def step (parse : Bytes → Option F64) (session : Session F64) :
    Label → Option (Session F64 × List (SessionEvent F64))
  | .core label =>
      (Runtime.step session.core label).map fun (core, events) =>
        ({ session with core }, events.map .core)
  | .poll move =>
      (clientStep parse session.core.shared.telemetryOut session.client move).map
        fun (client, returned) => ({ session with client }, returned.map .returned)

def system (parse : Bytes → Option F64) : System (Session F64) Label (SessionEvent F64) where
  step := step parse

/-- A client that is new when the core is. -/
def Session.start (dir : DataDir) : Session F64 where
  core := powerOn dir
  client := Client.new

/-- A condition on the steps of the core; the client polls as it likes. -/
def OnCore (allowed : Core → Thread × World → Prop) (session : Session F64) : Label → Prop
  | .core label => allowed session.core label
  | .poll _ => True

/-- The client moves, and no system call of its fails. -/
def OnlyPolls (_ : Session F64) : Label → Prop
  | .core _ => False
  | .poll move => move.ok = true

/-! ## The core in the session -/

def coreEvents : SessionEvent F64 → List Event
  | .core event => [event]
  | .returned _ => []

/-- What the core has done. -/
def coreTrace (trace : List (SessionEvent F64)) : List Event := trace.flatMap coreEvents

@[simp]
theorem coreTrace_append (trace events : List (SessionEvent F64)) :
    coreTrace (trace ++ events) = coreTrace trace ++ coreTrace events :=
  List.flatMap_append

@[simp]
theorem coreTrace_core (events : List Event) :
    coreTrace (events.map .core : List (SessionEvent F64)) = events := by
  induction events with
  | nil => rfl
  | cons event events ih => exact congrArg (event :: ·) ih

@[simp]
theorem coreTrace_returned (values : List (Returned F64)) :
    coreTrace (values.map .returned) = [] := by
  induction values with
  | nil => rfl
  | cons value values ih => exact ih

/-- The core runs as if nobody polled. -/
theorem run_core {parse : Bytes → Option F64} {allowed : Core → Thread × World → Prop}
    {first session : Session F64} {trace : List (SessionEvent F64)}
    (hrun : Run (system parse) (OnCore allowed) first trace session) :
    Run Runtime.system allowed first.core (coreTrace trace) session.core := by
  refine hrun.project coreEvents Session.core ?_
  intro trace session label next events _ hallowed hstep
  cases label with
  | core label =>
      obtain ⟨⟨core, stepEvents⟩, hcore, heq⟩ := Option.map_eq_some_iff.1 hstep
      obtain ⟨rfl, rfl⟩ := Prod.mk.inj heq
      have hsame : (stepEvents.map .core : List (SessionEvent F64)).flatMap coreEvents =
          stepEvents := coreTrace_core stepEvents
      rw [hsame]
      exact .single hallowed hcore
  | poll move =>
      obtain ⟨⟨client, returned⟩, hclient, heq⟩ := Option.map_eq_some_iff.1 hstep
      obtain ⟨rfl, rfl⟩ := Prod.mk.inj heq
      have hnone : (returned.map SessionEvent.returned).flatMap coreEvents = [] :=
        coreTrace_returned returned
      rw [hnone]
      exact .start

/-! ## The records the client may meet -/

/-- A message that reaches the client as it is. -/
def Plain (message : Bytes) : Prop :=
  Utf8.valid message = true ∧ newline ∉ message ∧ Trimmed message

instance (message : Bytes) : Decidable (Plain message) :=
  inferInstanceAs (Decidable (_ ∧ _ ∧ _))

/-- A handler that answers with a plain message. -/
def PlainReply : Handler → Prop
  | .reply message => Plain message
  | _ => True

instance : (handler : Handler) → Decidable (PlainReply handler)
  | .reply message => inferInstanceAs (Decidable (Plain message))
  | .emergencyStop | .shutdown | .stop | .reboot | .signal => inferInstanceAs (Decidable True)

theorem plainReply_of_mem : ∀ row ∈ defaultHandlers, PlainReply row.2 := by
  decide +kernel

theorem plain_of_answers {cmd : CommandEnvelope} {nowNs : UInt64} {result : CommandResult}
    (hanswers : Answers cmd nowNs result) : Plain result.message := by
  cases hanswers with
  | stale hexpired => decide +kernel
  | unsupported hfresh hunnamed => decide +kernel
  | handled name handler result hfresh hname hrow hreturns =>
      cases hreturns with
      | reply message => exact plainReply_of_mem _ hrow
      | signal =>
          unfold signalResult
          split_ifs <;> decide +kernel
      | _ => decide +kernel

/-- Every result published is that of a command which was taken. -/
theorem exists_answers_of_published {allowed : Core → Thread × World → Prop} {dir : DataDir}
    {trace : List Event} {core : Core} (hrun : Run Runtime.system allowed (powerOn dir) trace core)
    {cmd : CommandEnvelope} {result : CommandResult} (hmem : .published cmd result ∈ trace) :
    ∃ nowNs, Answers cmd nowNs result := by
  have hpublished : (cmd, result) ∈ publishedResults trace :=
    List.mem_filterMap.2 ⟨_, hmem, rfl⟩
  have hverdict := (InOrder.run hrun).subset (List.mem_append_left _ hpublished)
  obtain ⟨decided, -, hmatch⟩ := Decided.run hrun
  obtain ⟨⟨taken, nowNs⟩, -, rfl, hanswers⟩ := exists_of_forall₂ hmatch hverdict
  exact ⟨nowNs, hanswers⟩

/-- The record of a frame without sensors and joints. -/
def emptyRecord (timestampNs : UInt64) : Tailing.Record Empty :=
  .telemetry { timestampNs, ids := [], types := [], payloads := [] } []

/-- What the client makes of it. -/
def emptyFrame (timestampNs : UInt64) : TelemetryFrame F64 where
  timestampNs := timestampNs
  joints := []
  sensors := []
  payloads := []

/-- The record an event appends to `telemetry.out`. -/
def recordOf : Event → Option (Tailing.Record Empty)
  | .published cmd result => some (.result cmd.commandId result)
  | .telemetry frame => some (emptyRecord frame.timestampNs)
  | _ => none

/-- The result the client makes of a record. -/
def receivedOf (published : CommandEnvelope × CommandResult) : CommandResultEvent :=
  receivedResult published.1.commandId published.2

def timestamp : Event → Option UInt64
  | .telemetry frame => some frame.timestampNs
  | _ => none

/-- The timestamps of the frames published. -/
def timestamps (trace : List Event) : List UInt64 := trace.filterMap timestamp

theorem recordLine_eq (event : Event) :
    recordLine event = (recordOf event).map fun record => record.line printDouble := by
  cases event <;> rfl

theorem recordLines_eq (trace : List Event) :
    recordLines trace = (trace.filterMap recordOf).map fun record => record.line printDouble := by
  rw [recordLines, List.map_filterMap]
  exact congrArg (List.filterMap · trace) (funext recordLine_eq)

/-- The stubs report no joints, so no `double` is ever printed. -/
theorem prints_nothing (parse : Bytes → Option F64) : Prints printDouble parse Empty.elim :=
  ⟨fun number => number.elim, fun number => number.elim, fun number => number.elim⟩

theorem wellFormed_emptyRecord (timestampNs : UInt64) : (emptyRecord timestampNs).WellFormed :=
  ⟨by simp [freeTexts, sensorFields], by simp [sensorFields], by simp [InMemory]⟩

section Records

variable {parse : Bytes → Option F64} {allowed : Core → Thread × World → Prop} {dir : DataDir}
variable {trace : List Event} {core : Core}

/-- Every record of a run is one the client reads. -/
theorem wellFormed_of_run (hrun : Run Runtime.system allowed (powerOn dir) trace core)
    {record : Tailing.Record Empty} (hmem : record ∈ trace.filterMap recordOf) :
    record.WellFormed := by
  obtain ⟨event, hevent, hrecord⟩ := List.mem_filterMap.1 hmem
  cases event with
  | published cmd result =>
      obtain ⟨nowNs, hanswers⟩ := exists_answers_of_published hrun hevent
      obtain rfl := Option.some.inj hrecord
      exact plain_of_answers hanswers
  | telemetry frame =>
      obtain rfl := Option.some.inj hrecord
      exact wellFormed_emptyRecord _
  | _ => cases hrecord

theorem readable_of_run (hrun : Run Runtime.system allowed (powerOn dir) trace core)
    {line : Bytes} (hmem : line ∈ recordLines trace) : Readable parse line := by
  rw [recordLines_eq] at hmem
  obtain ⟨record, hrecord, rfl⟩ := List.mem_map.1 hmem
  exact record.readable_line (prints_nothing parse) (wellFormed_of_run hrun hrecord)

/-- The lines of a run hold the results published, in order. -/
theorem results_recordLines (hrun : Run Runtime.system allowed (powerOn dir) trace core) :
    (recordLines trace).filterMap resultOf = (publishedResults trace).map receivedOf := by
  rw [recordLines_eq, List.filterMap_map, publishedResults, List.map_filterMap]
  have hresult : (trace.filterMap recordOf).filterMap
      (resultOf ∘ fun record => record.line printDouble) =
        (trace.filterMap recordOf).filterMap Tailing.Record.event :=
    List.filterMap_congr fun record hrecord =>
      record.resultOf_line (prints_nothing fun _ => (none : Option Unit))
        (wellFormed_of_run hrun hrecord)
  rw [hresult, List.filterMap_filterMap]
  exact congrArg (List.filterMap · trace) (funext fun event => by cases event <;> rfl)

/-- They hold an empty frame for each sample. -/
theorem frames_recordLines (hrun : Run Runtime.system allowed (powerOn dir) trace core) :
    (recordLines trace).filterMap (frameOf parse) = (timestamps trace).map emptyFrame := by
  rw [recordLines_eq, List.filterMap_map, timestamps, List.map_filterMap]
  have hframe : (trace.filterMap recordOf).filterMap
      (frameOf parse ∘ fun record => record.line printDouble) =
        (trace.filterMap recordOf).filterMap (Tailing.Record.frame Empty.elim) :=
    List.filterMap_congr fun record hrecord =>
      record.frameOf_line (prints_nothing parse) (wellFormed_of_run hrun hrecord)
  rw [hframe, List.filterMap_filterMap]
  exact congrArg (List.filterMap · trace) (funext fun event => by cases event <;> rfl)

end Records

/-! ## The file in the session -/

def pollEvents : SessionEvent F64 → List (Polling.Event Bytes F64)
  | .core event => (recordLine event).toList.map .written
  | .returned value => [.returned value]

/-- The lines appended and what the polls have returned. -/
def pollTrace (trace : List (SessionEvent F64)) : List (Polling.Event Bytes F64) :=
  trace.flatMap pollEvents

@[simp]
theorem pollTrace_append (trace events : List (SessionEvent F64)) :
    pollTrace (trace ++ events) = pollTrace trace ++ pollTrace events :=
  List.flatMap_append

theorem pollTrace_core (events : List Event) :
    pollTrace (events.map .core : List (SessionEvent F64)) =
      (recordLines events).map .written := by
  induction events with
  | nil => rfl
  | cons event events ih =>
      have hhead : pollTrace ((event :: events).map .core : List (SessionEvent F64)) =
          (recordLine event).toList.map .written ++ pollTrace (events.map .core) := rfl
      rw [hhead, ih, ← List.map_append]
      cases hline : recordLine event <;> simp [recordLines, hline]

theorem pollTrace_returned (values : List (Returned F64)) :
    pollTrace (values.map .returned) = values.map .returned := by
  induction values with
  | nil => rfl
  | cons value values ih => exact congrArg (.returned value :: ·) ih

/-- The lines the client may read are those of the core's records. -/
theorem written_pollTrace (trace : List (SessionEvent F64)) :
    Polling.written (pollTrace trace) = recordLines (coreTrace trace) := by
  induction trace with
  | nil => rfl
  | cons event trace ih =>
      have hhead : pollTrace (event :: trace) = pollEvents event ++ pollTrace trace := rfl
      have hcore : coreTrace (event :: trace) = coreEvents event ++ coreTrace trace := rfl
      rw [hhead, hcore, Polling.written_append, recordLines_append, ih]
      congr 1
      cases event with
      | core event =>
          cases hline : recordLine event <;>
            simp [pollEvents, coreEvents, recordLines, hline, Polling.written]
      | returned value => rfl

/-- The file and the client, as `Rust.Polling` has them. -/
def Session.watched (session : Session F64) : Polling.Watched F64 where
  telemetryOut := session.core.shared.telemetryOut
  client := session.client

/-- Readable lines appended one after the other. -/
theorem run_appends {parse : Bytes → Option F64} {lines : List Bytes}
    (hreadable : ∀ line ∈ lines, Readable parse line) (file : Bytes) (client : Client F64) :
    Run (Polling.system parse) (Polling.AppendsReadable parse)
      { telemetryOut := file, client } (lines.map .written)
      { telemetryOut := file ++ wholeLines lines, client } := by
  induction lines generalizing file with
  | nil => simpa [wholeLines] using Run.start
  | cons line lines ih =>
      have hfirst : Run (Polling.system parse) (Polling.AppendsReadable parse)
          { telemetryOut := file, client } [.written line]
          { telemetryOut := file ++ (line ++ [newline]), client } :=
        .single (show Polling.AppendsReadable parse _ (.append line) from
          hreadable line (by simp)) rfl
      have hrest := ih (fun other hother => hreadable other (List.mem_cons_of_mem _ hother))
        (file ++ (line ++ [newline]))
      simpa [wholeLines] using hfirst.append hrest

/-- What a step of the core appends are the lines of its records. -/
theorem telemetryOut_of_step {allowed : Core → Thread × World → Prop} {dir : DataDir}
    {trace events : List Event} {core next : Core} {label : Thread × World}
    (hrun : Run Runtime.system allowed (powerOn dir) trace core) (hallowed : allowed core label)
    (hstep : Runtime.system.step core label = some (next, events)) :
    next.shared.telemetryOut = core.shared.telemetryOut ++ wholeLines (recordLines events) := by
  rw [(Reported.run (hrun.step hallowed hstep)).file, (Reported.run hrun).file,
    recordLines_append, List.flatMap_append, List.append_assoc]
  rfl

/-- A session is a history of whole lines appended to a file that is polled. -/
theorem run_watched {parse : Bytes → Option F64} {allowed : Core → Thread × World → Prop}
    {dir : DataDir} {trace : List (SessionEvent F64)} {session : Session F64}
    (hrun : Run (system parse) (OnCore allowed) (.start dir) trace session) :
    Run (Polling.system parse) (Polling.AppendsReadable parse) (Session.start dir).watched
      (pollTrace trace) session.watched := by
  refine hrun.project pollEvents Session.watched ?_
  intro trace session label next events hrun hallowed hstep
  cases label with
  | core label =>
      obtain ⟨⟨core, stepEvents⟩, hcore, heq⟩ := Option.map_eq_some_iff.1 hstep
      obtain ⟨rfl, rfl⟩ := Prod.mk.inj heq
      have hlines : (stepEvents.map .core : List (SessionEvent F64)).flatMap pollEvents =
          (recordLines stepEvents).map .written := pollTrace_core stepEvents
      have hfile := telemetryOut_of_step (run_core hrun) hallowed hcore
      have hrunNext := (run_core hrun).step hallowed hcore
      rw [hlines, Session.watched, Session.watched, hfile]
      refine run_appends (fun line hline => readable_of_run hrunNext ?_) _ _
      rw [recordLines_append]
      exact List.mem_append_right _ hline
  | poll move =>
      obtain ⟨⟨client, returned⟩, hclient, heq⟩ := Option.map_eq_some_iff.1 hstep
      obtain ⟨rfl, rfl⟩ := Prod.mk.inj heq
      have hvalues : (returned.map .returned : List (SessionEvent F64)).flatMap pollEvents =
          returned.map .returned := pollTrace_returned returned
      rw [hvalues]
      have hpoll : (Polling.system parse).step session.watched (.client move) =
          some ({ telemetryOut := session.core.shared.telemetryOut, client },
            returned.map .returned) :=
        Option.map_eq_some_iff.2 ⟨(client, returned), hclient, rfl⟩
      exact .single (show Polling.AppendsReadable parse _ (.client move) from trivial) hpoll

/-! ## What the client has seen -/

/-- A client that meets no line on which it panics does not panic. -/
theorem phase_of_clientStep {parse : Bytes → Option F64} {file : Bytes} {client next : Client F64}
    {move : Move} {returned : List (Returned F64)}
    (hstep : clientStep parse file client move = some (next, returned))
    (hreturns : ∀ line, RustText.readLine file client.transport.telemetryOffset = .line line →
      ¬ Panics parse line) : next.phase ≠ .panicked := by
  have hfinish : ∀ poll, some (Client.finish client.transport poll) = some (next, returned) →
      next.phase ≠ .panicked := by
    intro poll hreturned
    rw [← (Prod.mk.inj (Option.some.inj hreturned)).1]
    cases poll <;> simp
  unfold clientStep at hstep
  split at hstep
  · split_ifs at hstep
    · obtain ⟨rfl, -⟩ := Prod.mk.inj (Option.some.inj hstep)
      simp
    · exact hfinish _ hstep
  · split_ifs at hstep
    · split at hstep
      · rename_i line hline
        rw [drainLine_of_not_panics (hreturns line hline)] at hstep
        obtain ⟨rfl, -⟩ := Prod.mk.inj (Option.some.inj hstep)
        simp
      · exact hfinish _ hstep
    · exact hfinish _ hstep
  · cases hstep

/-- A client of readable lines never panics. -/
theorem phase_of_run {parse : Bytes → Option F64} {trace : List (Polling.Event Bytes F64)}
    {state : Polling.Watched F64}
    (hrun : Run (Polling.system parse) (Polling.AppendsReadable parse) .new trace state) :
    state.client.phase ≠ .panicked := by
  refine hrun.invariant (fun _ state => state.client.phase ≠ .panicked) (by
    simp [Polling.Watched.new, Client.new]) ?_
  intro trace state label next events hrun hphase _ hstep
  cases label with
  | append line =>
      obtain ⟨rfl, -⟩ := Prod.mk.inj (Option.some.inj hstep)
      exact hphase
  | client move =>
      obtain ⟨⟨client, returned⟩, hclient, heq⟩ := Option.map_eq_some_iff.1 hstep
      obtain ⟨rfl, -⟩ := Prod.mk.inj heq
      refine phase_of_clientStep hclient fun text htext => ?_
      obtain ⟨hreadable, consumed, haccounted⟩ := Polling.kept_of_run hrun
      rcases haccounted.readLine_eq hreadable with ⟨-, hend⟩ | ⟨line, hline, -, hread⟩
      · rw [hend] at htext
        cases htext
      · obtain rfl := ReadLine.line.inj (hread.symm.trans htext)
        exact fun hpanics => hline.returns (Polling.panics_append_newline.1 hpanics)

section Seen

variable {parse : Bytes → Option F64} {earlier : List Bytes} {dir : DataDir}
variable {trace : List (SessionEvent F64)} {session : Session F64}

/-- The session with what was in the file before it. -/
theorem run_whole (hearlier : ∀ line ∈ earlier, Readable parse line)
    (hdir : dir.telemetryOut = wholeLines earlier) {allowed : Core → Thread × World → Prop}
    (hrun : Run (system parse) (OnCore allowed) (.start dir) trace session) :
    Run (Polling.system parse) (Polling.AppendsReadable parse) .new
      (earlier.map .written ++ pollTrace trace) session.watched := by
  have hbefore := run_appends hearlier [] (Client.new : Client F64)
  rw [List.nil_append, ← hdir] at hbefore
  exact hbefore.append (run_watched hrun)

theorem returned_written (lines : List Bytes) (later : List (Polling.Event Bytes F64)) :
    returnedResults (lines.map .written ++ later) = returnedResults later ∧
      returnedTelemetry (lines.map .written ++ later) = returnedTelemetry later := by
  induction lines with
  | nil => exact ⟨rfl, rfl⟩
  | cons line lines ih => exact ih

theorem written_whole (earlier : List Bytes) (trace : List (SessionEvent F64)) :
    Polling.written (earlier.map .written ++ pollTrace trace) =
      earlier ++ recordLines (coreTrace trace) := by
  rw [Polling.written_append, written_pollTrace]
  congr 1
  induction earlier with
  | nil => rfl
  | cons line earlier ih => exact congrArg (line :: ·) ih

/-- What was there before and then the results published. -/
def allResults (earlier : List Bytes) (trace : List Event) : List CommandResultEvent :=
  earlier.filterMap resultOf ++ (publishedResults trace).map receivedOf

/-- What was there before and then an empty frame for each sample. -/
def allFrames (parse : Bytes → Option F64) (earlier : List Bytes) (trace : List Event) :
    List (TelemetryFrame F64) :=
  earlier.filterMap (frameOf parse) ++ (timestamps trace).map emptyFrame

/-- The lines hold what the client is to see. -/
theorem contents_whole (parse : Bytes → Option F64) (earlier : List Bytes)
    {allowed : Core → Thread × World → Prop} {events : List Event} {core : Core}
    (hrun : Run Runtime.system allowed (powerOn dir) events core) :
    (earlier ++ recordLines events).filterMap resultOf = allResults earlier events ∧
      (earlier ++ recordLines events).filterMap (frameOf parse) =
        allFrames parse earlier events := by
  rw [List.filterMap_append, List.filterMap_append, results_recordLines hrun,
    frames_recordLines hrun]
  exact ⟨rfl, rfl⟩

/-- The client has not panicked, and it has been delivered the first of all
results and the first of all frames. -/
structure Seen (parse : Bytes → Option F64) (earlier : List Bytes)
    (trace : List (SessionEvent F64)) (session : Session F64) : Prop where
  phase : session.client.phase ≠ .panicked
  results : deliveredResults (pollTrace trace) session.client <+:
    allResults earlier (coreTrace trace)
  telemetry : deliveredTelemetry (pollTrace trace) session.client <+:
    allFrames parse earlier (coreTrace trace)

theorem seen_of_run (hearlier : ∀ line ∈ earlier, Readable parse line)
    (hdir : dir.telemetryOut = wholeLines earlier) {allowed : Core → Thread × World → Prop}
    (hrun : Run (system parse) (OnCore allowed) (.start dir) trace session) :
    Seen parse earlier trace session := by
  have hwhole := run_whole hearlier hdir hrun
  obtain ⟨-, consumed, haccounted⟩ := Polling.kept_of_run hwhole
  have horder := haccounted.in_order
  rw [written_whole] at horder
  obtain ⟨hresults, htelemetry⟩ := returned_written earlier (pollTrace trace)
  obtain ⟨hallResults, hallFrames⟩ :=
    contents_whole parse earlier (run_core hrun)
  refine ⟨phase_of_run hwhole, ?_, ?_⟩
  · have hdelivered := horder.filterMap resultOf
    rwa [← haccounted.results, hallResults, deliveredResults, hresults] at hdelivered
  · have hdelivered := horder.filterMap (frameOf parse)
    rwa [← haccounted.telemetry, hallFrames, deliveredTelemetry, htelemetry] at hdelivered

/-- Polls that meet no failing system call, as `Rust.Polling` has them. -/
theorem run_polls {later : List (SessionEvent F64)} {last : Session F64}
    (hrun : Run (system parse) OnlyPolls session later last) :
    Run (Polling.system parse) Polling.OnlyPolls session.watched (pollTrace later) last.watched ∧
      coreTrace later = [] := by
  constructor
  · refine hrun.project pollEvents Session.watched ?_
    intro later state label next events _ hallowed hstep
    cases label with
    | core label => cases hallowed
    | poll move =>
        obtain ⟨⟨client, returned⟩, hclient, heq⟩ := Option.map_eq_some_iff.1 hstep
        obtain ⟨rfl, rfl⟩ := Prod.mk.inj heq
        have hvalues : (returned.map .returned : List (SessionEvent F64)).flatMap pollEvents =
            returned.map .returned := pollTrace_returned returned
        have hpoll : (Polling.system parse).step state.watched (.client move) =
            some ({ telemetryOut := state.core.shared.telemetryOut, client },
              returned.map .returned) :=
          Option.map_eq_some_iff.2 ⟨(client, returned), hclient, rfl⟩
        rw [hvalues]
        exact .single (show Polling.OnlyPolls _ (.client move) from hallowed) hpoll
  · refine hrun.invariant (fun later _ => coreTrace later = []) rfl ?_
    intro later state label next events _ hnone hallowed hstep
    cases label with
    | core label => cases hallowed
    | poll move =>
        obtain ⟨⟨client, returned⟩, -, heq⟩ := Option.map_eq_some_iff.1 hstep
        obtain ⟨-, rfl⟩ := Prod.mk.inj heq
        simp [hnone]

/-- Both polls have returned since the core's last step. -/
structure PolledAfter (parse : Bytes → Option F64) (session : Session F64)
    (later : List (SessionEvent F64)) (last : Session F64) : Prop where
  run : Run (system parse) OnlyPolls session later last
  telemetry : ∃ frames, .returned (.telemetry frames) ∈ later
  results : ∃ results, .returned (.results results) ∈ later

theorem mem_pollTrace {value : Returned F64} {later : List (SessionEvent F64)}
    (hmem : .returned value ∈ later) : .returned value ∈ pollTrace later :=
  List.mem_flatMap.2 ⟨_, hmem, by simp [pollEvents]⟩

theorem returned_of_polledAfter (hearlier : ∀ line ∈ earlier, Readable parse line)
    (hdir : dir.telemetryOut = wholeLines earlier) {allowed : Core → Thread × World → Prop}
    (hrun : Run (system parse) (OnCore allowed) (.start dir) trace session)
    {later : List (SessionEvent F64)} {last : Session F64}
    (hpolled : PolledAfter parse session later last) :
    returnedResults (pollTrace (trace ++ later)) = allResults earlier (coreTrace trace) ∧
      returnedTelemetry (pollTrace (trace ++ later)) =
        allFrames parse earlier (coreTrace trace) := by
  obtain ⟨hpolls, hcore⟩ := run_polls hpolled.run
  have hlast : Polling.PolledLast parse
      (earlier.map .written ++ pollTrace trace ++ pollTrace later) :=
    ⟨_, _, _, _, rfl, run_whole hearlier hdir hrun, hpolls,
      hpolled.telemetry.imp fun _ => mem_pollTrace, hpolled.results.imp fun _ => mem_pollTrace⟩
  obtain ⟨htelemetry, hresults⟩ := Polling.returned_of_polledLast hlast
  obtain ⟨hallResults, hallFrames⟩ :=
    contents_whole parse earlier (run_core hrun)
  rw [List.append_assoc, ← pollTrace_append, written_whole, coreTrace_append, hcore,
    List.append_nil] at htelemetry hresults
  rw [(returned_written earlier _).2, hallFrames] at htelemetry
  rw [(returned_written earlier _).1, hallResults] at hresults
  exact ⟨hresults, htelemetry⟩

end Seen

/-- While the core runs, the client is delivered the results the control thread
has published and the frames of the sensor thread, each kind in order, behind
those of the file before, and it never panics; two polls after the core's last
step return the rest. -/
theorem client_sees_records (parse : Bytes → Option F64) (earlier : List Bytes)
    (hearlier : ∀ line ∈ earlier, Readable parse line) (dir : DataDir)
    (hdir : dir.telemetryOut = wholeLines earlier) (trace : List (SessionEvent F64))
    (session : Session F64) (hrun : Run (system parse) always (.start dir) trace session) :
    Seen parse earlier trace session ∧
      ∀ later last, PolledAfter parse session later last →
        returnedResults (pollTrace (trace ++ later)) = allResults earlier (coreTrace trace) ∧
          returnedTelemetry (pollTrace (trace ++ later)) =
            allFrames parse earlier (coreTrace trace) := by
  have hcore : Run (system parse) (OnCore always) (.start dir) trace session := by
    refine hrun.mono fun _ label _ => ?_
    cases label <;> trivial
  exact ⟨seen_of_run hearlier hdir hcore, fun later last hpolled =>
    returned_of_polledAfter hearlier hdir hcore hpolled⟩

instance (session : Session F64) : (label : Label) → Decidable (OnlyPolls session label)
  | .core _ => inferInstanceAs (Decidable False)
  | .poll move => inferInstanceAs (Decidable (move.ok = true))

/-- One `Stop` to execute and one frame left by an earlier process. -/
private def stopDir : DataDir :=
  { freshDir (ascii "C|1|102|0|0|0|0|0|AA==\n") with telemetryOut := ascii "T|7|0|0\n" }

/-- The client reads the old frame while the core is at work, and the result
after it. -/
theorem client_sees_stop :
    ∃ (trace later : List (SessionEvent UInt64)) (session last : Session UInt64),
      Run (system parseWhole) always (.start stopDir) trace session ∧
        Seen parseWhole [ascii "T|7|0|0"] trace session ∧
        PolledAfter parseWhole session later last ∧
        returnedResults (pollTrace (trace ++ later)) = [receivedResult 1 drivesDisabled] := by
  obtain ⟨⟨session, trace⟩, hfirst, hsecond⟩ := Option.bind_eq_some_iff.1
    (show ((execute (system parseWhole) always (.start stopDir)
        ((bootSchedule ++ times 5 .io).map .core ++
          [.poll (.call .results true), .poll (.read true)] ++
          (times 11 .control).map .core)).bind fun reached =>
        (execute (system parseWhole) OnlyPolls reached.1
          [.poll (.read true), .poll (.read true), .poll (.call .telemetry true),
            .poll (.read true)]).map fun result =>
          (publishedResults (coreTrace reached.2), result.2)) =
      some ([(plainCommand .stop 1, drivesDisabled)],
        [.returned (.results [receivedResult 1 drivesDisabled]),
          .returned (.telemetry [emptyFrame 7])]) by decide +kernel)
  obtain ⟨⟨last, later⟩, hlater, heq⟩ := Option.map_eq_some_iff.1 hsecond
  obtain ⟨hpublished, rfl⟩ := Prod.mk.inj heq
  have hpolled : PolledAfter parseWhole session _ last :=
    ⟨run_of_execute hlater, ⟨[emptyFrame 7], by simp⟩, ⟨[receivedResult 1 drivesDisabled], by simp⟩⟩
  have hrun := run_of_execute hfirst
  have hseen := client_sees_records parseWhole [ascii "T|7|0|0"] (by decide +kernel) stopDir
    (by decide +kernel) trace session hrun
  refine ⟨trace, _, session, last, hrun, hseen.1, hpolled, ?_⟩
  rw [(hseen.2 _ last hpolled).1, allResults, hpublished]
  decide +kernel

end ArcravenUgv.Observer
