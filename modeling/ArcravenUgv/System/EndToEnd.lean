import ArcravenUgv.Config.OneClient
import ArcravenUgv.Rust.Transport
import ArcravenUgv.System.Observer

/-!
# From a command sent to the result received

One operator writes commands with the Rust client and polls for results, while
the core runs over an empty data directory.  A result the client is given
belongs to a command that was sent, and says of it what the core's handlers say.
-/

namespace ArcravenUgv.EndToEnd

open ArcravenUgv.Enums
open ArcravenUgv.Command
open ArcravenUgv.Command.CommandRouter
open ArcravenUgv.Decimal
open ArcravenUgv.Delimited
open ArcravenUgv.CommandLine
open ArcravenUgv.Bridge
open ArcravenUgv.Handlers
open ArcravenUgv.RustTransport
open ArcravenUgv.RustRecords
open ArcravenUgv.RoundTrip
open ArcravenUgv.Drain
open ArcravenUgv.Runs
open ArcravenUgv.Runtime
open ArcravenUgv.Intake
open ArcravenUgv.ReadLines
open ArcravenUgv.OneClient
open ArcravenUgv.Acknowledge
open ArcravenUgv.Verdicts
open ArcravenUgv.Observer
open ArcravenUgv.Polling (deliveredResults returnedResults)

variable {F64 : Type}

/-- The event says what became of the command. -/
def Replies (env : RustEnvelope) (event : CommandResultEvent) : Prop :=
  ∃ nowNs result, Answers env.received nowNs result ∧
    event = receivedResult env.commandId result

/-- The lines `send_command` writes, in order. -/
def commandLines (envelopes : List RustEnvelope) : List Bytes := envelopes.map encodeCommand

/-- Only `send_command` appends to `commands.in`, and its calls are made one after
the other. -/
def Sends (envelopes : List RustEnvelope) : Core → Thread × World → Prop :=
  NextAppend (commandLines envelopes)

/-! ## Lists matched item by item -/

section Matched

variable {A B : Type*} {related : A → B → Prop}

/-- What is left of one side is matched by what is left of the other. -/
theorem exists_sublist_of_forall₂ {left : List A} {right part : List B}
    (hmatch : List.Forall₂ related left right) (hpart : part.Sublist right) :
    ∃ chosen : List A, chosen.Sublist left ∧ List.Forall₂ related chosen part := by
  induction hpart generalizing left with
  | slnil => exact ⟨[], List.nil_sublist _, .nil⟩
  | cons item _ ih =>
      cases hmatch with
      | cons _ htail =>
          obtain ⟨chosen, hchosen, hrelated⟩ := ih htail
          exact ⟨chosen, hchosen.cons _, hrelated⟩
  | cons_cons item _ ih =>
      cases hmatch with
      | cons hhead htail =>
          obtain ⟨chosen, hchosen, hrelated⟩ := ih htail
          exact ⟨_ :: chosen, hchosen.cons_cons _, .cons hhead hrelated⟩

/-- The first of one side match the first of the other. -/
theorem forall₂_of_isPrefix {left : List A} {right part : List B}
    (hmatch : List.Forall₂ related left right) (hpart : part <+: right) :
    List.Forall₂ related (left.take part.length) part := by
  have htake := List.forall₂_take part.length hmatch
  rwa [← List.prefix_iff_eq_take.1 hpart] at htake

end Matched

/-! ## From the commands sent to those taken -/

theorem proper_commandLines (envelopes : List RustEnvelope) :
    Proper (commandLines envelopes) := by
  intro line hline
  obtain ⟨env, -, rfl⟩ := List.mem_map.1 hline
  exact ⟨(commandFields env).line_ne_nil, (denote_commandFields env).not_mem_line (Or.inl rfl)⟩

theorem wellFormed_encodeCommand (env : RustEnvelope) :
    WellFormed (encodeCommand env) env.received :=
  ⟨commandFields env, rfl, denote_commandFields env⟩

theorem lineEnvelope_encodeCommand (env : RustEnvelope) :
    lineEnvelope (encodeCommand env) =
      if env.payloadJson ≠ "" then some env.received else none := by
  rw [(wellFormed_encodeCommand env).lineEnvelope_eq]
  simp only [hasPayload_encodeCommand]

section Taken

variable {envelopes : List RustEnvelope} {dir : DataDir} {trace : List Event} {core : Core}

/-- The lines `pump_rx` is done with are the first of the lines sent. -/
theorem isPrefix_doneLines (hempty : dir.commandsIn = [])
    (hrun : Run Runtime.system (Sends envelopes) (powerOn dir) trace core) :
    (doneLines trace).map Prod.snd <+: commandLines envelopes := by
  obtain ⟨taken, hconsumed⟩ := Consumed.run (fun _ _ => NextAppend.wholeLines) hrun
  obtain ⟨written, hwritten, hfile⟩ := written_of_run hempty hrun
  have hlines := segments_written (proper_commandLines envelopes) hwritten
  rw [← hfile] at hlines
  have hdone := congrArg (List.map Prod.snd) hconsumed.lines
  rw [List.map_append, map_snd_placed] at hdone
  exact (hdone ▸ List.prefix_append _ _).trans (hconsumed.first.trans hlines)

/-- The commands handed to `submit` are some of those sent, in order. -/
theorem readCommands_sublist_sent (hempty : dir.commandsIn = [])
    (hrun : Run Runtime.system (Sends envelopes) (powerOn dir) trace core) :
    (readCommands trace).Sublist (envelopes.map RustEnvelope.received) := by
  have hread := (isPrefix_doneLines hempty hrun).filterMap lineEnvelope
  rw [List.filterMap_map] at hread
  rw [Parsed.run hrun]
  refine hread.sublist.trans ?_
  rw [commandLines, List.filterMap_map]
  clear hread hrun
  induction envelopes with
  | nil => exact List.Sublist.slnil
  | cons env envelopes ih =>
      by_cases hpayload : env.payloadJson = ""
      · rw [List.filterMap_cons_none (by simp [lineEnvelope_encodeCommand, hpayload])]
        exact ih.cons _
      · rw [List.filterMap_cons_some (by
          simpa [lineEnvelope_encodeCommand] using ⟨hpayload, rfl⟩)]
        exact ih.cons_cons _

/-- So are those the control thread has taken. -/
theorem takenCommands_sublist_sent (hempty : dir.commandsIn = [])
    (hrun : Run Runtime.system (Sends envelopes) (powerOn dir) trace core) :
    ((takenCommands trace).map Prod.fst).Sublist (envelopes.map RustEnvelope.received) := by
  have hdelivered := Delivered.run hrun
  rw [takenCommands_fst]
  refine (List.sublist_append_left _ core.shared.router.q).trans ?_
  rw [← hdelivered]
  exact (acceptedLines_sublist trace).trans (readCommands_sublist_sent hempty hrun)

end Taken

/-! ## From the verdicts to the client -/

theorem replies_of_decides {env : RustEnvelope} {taken : CommandEnvelope × UInt64}
    {verdict : CommandEnvelope × CommandResult} (hdecides : Decides taken verdict)
    (hsent : taken.1 = env.received) : Replies env (receivedOf verdict) := by
  obtain ⟨hsame, hanswers⟩ := hdecides
  refine ⟨taken.2, verdict.2, hsent ▸ hanswers, ?_⟩
  rw [receivedOf, hsame, hsent]
  rfl

theorem forall₂_replies {taken : List (CommandEnvelope × UInt64)}
    {given : List (CommandEnvelope × CommandResult)} (hmatch : List.Forall₂ Decides taken given)
    {answered : List RustEnvelope}
    (hsent : taken.map Prod.fst = answered.map RustEnvelope.received) :
    List.Forall₂ Replies answered (given.map receivedOf) := by
  induction hmatch generalizing answered with
  | nil =>
      obtain rfl := List.map_eq_nil_iff.1 hsent.symm
      exact .nil
  | cons hhead _ ih =>
      obtain ⟨env, rest, rfl, henv, hrest⟩ := List.map_eq_cons_iff.1 hsent.symm
      exact .cons (replies_of_decides hhead henv.symm) (ih hrest.symm)

section Delivered

variable {parse : Bytes → Option F64} {envelopes : List RustEnvelope} {dir : DataDir}
variable {trace : List (SessionEvent F64)} {session : Session F64}

/-- What was delivered are the first of the results published. -/
theorem exists_published_of_delivered (htelemetry : dir.telemetryOut = [])
    {allowed : Core → Thread × World → Prop}
    (hrun : Run (Observer.system parse) (OnCore allowed) (.start dir) trace session) :
    ∃ given, given <+: publishedResults (coreTrace trace) ∧
      deliveredResults (pollTrace trace) session.client = given.map receivedOf := by
  have hnone : ∀ line ∈ ([] : List Bytes), Polling.Readable parse line := by simp
  exact List.prefix_map_iff.1 (seen_of_run hnone htelemetry hrun).results

end Delivered

/-- Whatever is sent, whatever happens to it on the way and however the client
polls: the results it is given answer commands that were sent, each at most once
and in the order of sending. -/
theorem every_result_replies (parse : Bytes → Option F64) (envelopes : List RustEnvelope)
    (dir : DataDir) (hcommands : dir.commandsIn = []) (htelemetry : dir.telemetryOut = [])
    (trace : List (SessionEvent F64)) (session : Session F64)
    (hrun : Run (Observer.system parse) (OnCore (Sends envelopes)) (.start dir) trace session) :
    ∃ answered : List RustEnvelope, answered.Sublist envelopes ∧
      List.Forall₂ Replies answered (deliveredResults (pollTrace trace) session.client) := by
  obtain ⟨given, hgiven, hdelivered⟩ := exists_published_of_delivered htelemetry hrun
  have hcore := run_core hrun
  obtain ⟨decided, htaken, hmatch⟩ := Decided.run hcore
  have hpart : given.Sublist (verdicts (coreTrace trace)) :=
    hgiven.sublist.trans ((List.sublist_append_left _ _).trans (InOrder.run hcore))
  obtain ⟨chosen, hchosen, hdecides⟩ := exists_sublist_of_forall₂ hmatch hpart
  have hsent : (chosen.map Prod.fst).Sublist (envelopes.map RustEnvelope.received) := by
    refine (List.Sublist.map _ (hchosen.trans ?_)).trans
      (takenCommands_sublist_sent hcommands hcore)
    rw [htaken]
    exact List.sublist_append_left _ _
  obtain ⟨answered, hanswered, hsame⟩ := List.sublist_map_iff.1 hsent
  exact ⟨answered, hanswered, hdelivered ▸ forall₂_replies hdecides hsame⟩

/-! ## Nothing lost on the way -/

/-- The queue has room when a command is handed to `submit`. -/
def QueueRoom (core : Core) (label : Thread × World) : Prop :=
  label.1 = .io → ∀ offset line atEnd, core.io = .body offset line atEnd →
    core.shared.router.q.length < core.shared.router.cfg.maxQueue

/-- The operator alone writes commands, the queue never overflows and every
result is appended. -/
structure Unhindered (envelopes : List RustEnvelope) (core : Core) (label : Thread × World) :
    Prop where
  sends : Sends envelopes core label
  room : QueueRoom core label
  appends : AppendsSucceed core label

/-- What the core accepts from a client: a payload and an id. -/
def Complete (env : RustEnvelope) : Prop := env.payloadJson ≠ "" ∧ env.commandId ≠ 0

/-- Every command with an id that was handed to `submit` was queued. -/
def Queued (trace : List Event) : Prop :=
  ∀ offset line env answer, .lineDone offset line (some (env, answer)) ∈ trace →
    env.commandId ≠ 0 → answer = queuedResult

theorem Queued.quiet {trace events : List Event} (hqueued : Queued trace)
    (hquiet : ∀ offset line answer, .lineDone offset line answer ∉ events) :
    Queued (trace ++ events) := fun offset line env answer hmem =>
  hqueued offset line env answer ((List.mem_append.1 hmem).resolve_right
    (hquiet offset line (some (env, answer))))

theorem Queued.io {trace events : List Event} {world : World} {core : Core} {shared : Shared}
    {pc : IoPc} (hqueued : Queued trace) (hroom : QueueRoom core (.io, world))
    (hmoves : IoMoves core.shared core.io shared pc events) : Queued (trace ++ events) := by
  cases hmoves with
  | submit offset line atEnd read hpc henvelope =>
      intro offset' line' env answer hmem hid
      rcases List.mem_append.1 hmem with hmem | hmem
      · exact hqueued _ _ _ _ hmem hid
      · obtain ⟨rfl, rfl, rfl, rfl⟩ : offset' = offset ∧ line' = line ∧ env = read ∧
            answer = (core.shared.router.submit read).2 := by
          simpa using hmem
        rw [submit_of_accepted (hroom rfl _ _ _ hpc) hid]
  | ignore offset line atEnd hpc henvelope =>
      intro offset' line' env answer hmem hid
      exact hqueued _ _ _ _ ((List.mem_append.1 hmem).resolve_right (by simp)) hid
  | _ => exact hqueued.quiet (by simp)

theorem Queued.moves {trace events : List Event} {world : World} {core next : Core}
    {thread : Thread} (hqueued : Queued trace) (hroom : QueueRoom core (thread, world))
    (hmoves : PathMoves world core thread next events) : Queued (trace ++ events) := by
  cases hmoves with
  | io shared pc events hthread hmoves => exact hqueued.io hroom hmoves
  | control shared pc events hthread hmoves =>
      cases hmoves with
      | handle nowNs left cmd before after shared events hpc hhandler =>
          cases hhandler <;> exact hqueued.quiet (by simp)
      | _ => exact hqueued.quiet (by simp)
  | append => exact hqueued.quiet (by simp)
  | aside thread next events haside =>
      exact hqueued.quiet fun offset line answer hmem => haside.silent _ hmem trivial

theorem Queued.run {allowed : Core → Thread × World → Prop} {dir : DataDir} {trace : List Event}
    {core : Core} (hallowed : ∀ core label, allowed core label → QueueRoom core label)
    (hrun : Run Runtime.system allowed (powerOn dir) trace core) : Queued trace := by
  refine hrun.invariant (fun trace _ => Queued trace) (by simp [Queued]) ?_
  intro trace core label next events _ hqueued hlabel hstep
  exact hqueued.moves (hallowed core label hlabel) (moves_of_step hstep).path

/-- Then the queue takes what `pump_rx` reads. -/
theorem acceptedLines_eq_read {trace : List Event} (hqueued : Queued trace)
    (hids : ∀ env ∈ readCommands trace, env.commandId ≠ 0) :
    (acceptedLines trace).map Prod.snd = readCommands trace := by
  rw [acceptedLines, readCommands, List.map_filterMap]
  refine List.filterMap_congr fun event hevent => ?_
  cases event with
  | lineDone offset line answer =>
      cases answer with
      | none => rfl
      | some read =>
          obtain ⟨env, answer⟩ := read
          have hid := hids env (List.mem_filterMap.2 ⟨_, hevent, rfl⟩)
          obtain rfl := hqueued offset line env answer hevent hid
          rfl
  | _ => rfl

section Prefix

variable {envelopes : List RustEnvelope} {dir : DataDir} {trace : List Event} {core : Core}

/-- The lines of complete commands are read as these commands. -/
theorem filterMap_commandLines (hcomplete : ∀ env ∈ envelopes, Complete env) :
    (commandLines envelopes).filterMap lineEnvelope = envelopes.map RustEnvelope.received := by
  rw [commandLines, List.filterMap_map, ← List.filterMap_eq_map]
  refine List.filterMap_congr fun env henv => ?_
  simp [lineEnvelope_encodeCommand, (hcomplete env henv).1]

theorem readCommands_eq (hrun : Run Runtime.system (Sends envelopes) (powerOn dir) trace core) :
    readCommands trace = ((doneLines trace).map Prod.snd).filterMap lineEnvelope := by
  rw [Parsed.run hrun, List.filterMap_map]
  rfl

theorem isPrefix_readCommands (hcomplete : ∀ env ∈ envelopes, Complete env)
    (hempty : dir.commandsIn = [])
    (hrun : Run Runtime.system (Sends envelopes) (powerOn dir) trace core) :
    readCommands trace <+: envelopes.map RustEnvelope.received := by
  rw [readCommands_eq hrun, ← filterMap_commandLines hcomplete]
  exact (isPrefix_doneLines hempty hrun).filterMap lineEnvelope

/-- What was taken and what is queued is what was read. -/
theorem taken_append_queue (hcomplete : ∀ env ∈ envelopes, Complete env)
    (hempty : dir.commandsIn = [])
    (hrun : Run Runtime.system (Unhindered envelopes) (powerOn dir) trace core) :
    (takenCommands trace).map Prod.fst ++ core.shared.router.q = readCommands trace := by
  have hsends := hrun.mono fun _ _ => Unhindered.sends
  rw [takenCommands_fst, ← Delivered.run hrun]
  refine acceptedLines_eq_read (Queued.run (fun _ _ => Unhindered.room) hrun) fun env henv => ?_
  obtain ⟨sent, hsent, rfl⟩ :=
    List.mem_map.1 ((isPrefix_readCommands hcomplete hempty hsends).subset henv)
  exact (hcomplete sent hsent).2

/-- Everything sent has been written, read, taken, answered and published. -/
structure Settled (envelopes : List RustEnvelope) (core : Core) : Prop where
  written : linesFrom core.shared.commandsIn 0 = commandLines envelopes
  consumed : core.shared.commandsIn.length ≤ core.shared.bridge.commandOffset
  io : ReadLines.inBody core.io = []
  queue : core.shared.router.q = []
  undecided : undecided core.control = none
  unpublished : unpublished core.control = none

theorem Settled.readCommands_eq (hsettled : Settled envelopes core)
    (hcomplete : ∀ env ∈ envelopes, Complete env)
    (hrun : Run Runtime.system (Sends envelopes) (powerOn dir) trace core) :
    readCommands trace = envelopes.map RustEnvelope.received := by
  obtain ⟨taken, hconsumed⟩ := Consumed.run (fun _ _ => NextAppend.wholeLines) hrun
  have hdone := congrArg (List.map Prod.snd) hconsumed.lines
  rw [hsettled.io, List.append_nil, map_snd_placed] at hdone
  obtain ⟨rest, hrest⟩ := hconsumed.first
  have hnone := segments_drop_extent hrest.symm
  rw [← hconsumed.offset, List.drop_zero, List.drop_eq_nil_of_le hsettled.consumed,
    segments_nil] at hnone
  rw [← hnone, List.append_nil, hsettled.written] at hrest
  rw [EndToEnd.readCommands_eq hrun, hdone, hrest, filterMap_commandLines hcomplete]

end Prefix

/-- The operator sends complete commands, the queue never overflows and every
result is appended: then the results are those of the first commands sent, none
left out, and once everything is settled two polls have returned a result for
each. -/
theorem results_follow_commands (parse : Bytes → Option F64) (envelopes : List RustEnvelope)
    (hcomplete : ∀ env ∈ envelopes, Complete env) (dir : DataDir)
    (hcommands : dir.commandsIn = []) (htelemetry : dir.telemetryOut = [])
    (trace : List (SessionEvent F64)) (session : Session F64)
    (hrun : Run (Observer.system parse) (OnCore (Unhindered envelopes)) (.start dir)
      trace session) :
    List.Forall₂ Replies
      (envelopes.take (deliveredResults (pollTrace trace) session.client).length)
      (deliveredResults (pollTrace trace) session.client) ∧
    (Settled envelopes session.core → ∀ later last, PolledAfter parse session later last →
      List.Forall₂ Replies envelopes (returnedResults (pollTrace (trace ++ later)))) := by
  have hcore := run_core hrun
  have hsends := hcore.mono fun _ _ => Unhindered.sends
  have hpublished := AllPublished.run (fun _ _ => Unhindered.appends) hcore
  have hread := taken_append_queue hcomplete hcommands hcore
  obtain ⟨decided, htaken, hmatch⟩ := Decided.run hcore
  constructor
  · obtain ⟨given, hgiven, hdelivered⟩ := exists_published_of_delivered htelemetry hrun
    have hpart : given <+: verdicts (coreTrace trace) :=
      hgiven.trans (hpublished ▸ List.prefix_append _ _)
    have hsent : decided.map Prod.fst <+: envelopes.map RustEnvelope.received := by
      refine List.IsPrefix.trans ?_ (isPrefix_readCommands hcomplete hcommands hsends)
      rw [← hread, htaken, List.map_append, List.append_assoc]
      exact List.prefix_append _ _
    have hchosen : (decided.take given.length).map Prod.fst =
        (envelopes.take given.length).map RustEnvelope.received := by
      have hlength : given.length ≤ decided.length :=
        hmatch.length_eq ▸ hpart.length_le
      rw [List.map_take, List.map_take, List.prefix_iff_eq_take.1 hsent, List.take_take,
        List.length_map, min_eq_left hlength]
    rw [hdelivered, List.length_map]
    exact forall₂_replies (forall₂_of_isPrefix hmatch hpart) hchosen
  · intro hsettled later last hpolled
    have hnone : ∀ line ∈ ([] : List Bytes), Polling.Readable parse line := by simp
    rw [(returned_of_polledAfter hnone htelemetry hrun hpolled).1]
    rw [AllPublished, hsettled.unpublished, Option.toList_none, List.append_nil] at hpublished
    rw [hsettled.undecided, Option.toList_none, List.append_nil] at htaken
    rw [hsettled.queue, List.append_nil, hsettled.readCommands_eq hcomplete hsends, htaken] at hread
    rw [hpublished] at hmatch
    exact forall₂_replies hmatch hread

/-! ## Two commands -/

instance (envelopes : List RustEnvelope) (core : Core) (label : Thread × World) :
    Decidable (Sends envelopes core label) :=
  inferInstanceAs (Decidable (NextAppend _ core label))

/-- A step that is unhindered whatever the state. -/
def Smooth (envelopes : List RustEnvelope) (core : Core) (label : Thread × World) : Prop :=
  Sends envelopes core label ∧
    core.shared.router.q.length < core.shared.router.cfg.maxQueue ∧ label.2.opened = true

instance (envelopes : List RustEnvelope) (core : Core) (label : Thread × World) :
    Decidable (Smooth envelopes core label) :=
  inferInstanceAs (Decidable (_ ∧ _ ∧ _))

theorem Smooth.unhindered {envelopes : List RustEnvelope} {core : Core} {label : Thread × World}
    (hsmooth : Smooth envelopes core label) : Unhindered envelopes core label where
  sends := hsmooth.1
  room := fun _ _ _ _ _ => hsmooth.2.1
  appends := appendsSucceed_of_opens hsmooth.2.2

instance (allowed : Core → Thread × World → Prop)
    [∀ core label, Decidable (allowed core label)] (session : Session F64) :
    (label : Observer.Label) → Decidable (OnCore allowed session label)
  | .core label => inferInstanceAs (Decidable (allowed session.core label))
  | .poll _ => inferInstanceAs (Decidable True)

private def stopSent : RustEnvelope where
  command := .stop
  domain := .mobility
  priority := .high
  authority := .remoteOperator
  commandId := 1
  issuedNs := 0
  ttlNs := 0
  payloadJson := "{}"

/-- A `GoTo` that is no longer wanted when its turn comes. -/
private def goToSent : RustEnvelope :=
  { stopSent with command := .goTo, commandId := 2, issuedNs := 1, ttlNs := 5 }

private def bothSent : List RustEnvelope := [stopSent, goToSent]

/-- The client's four writes. -/
private def sending : List Observer.Label :=
  (appends (commandLines bothSent)).map fun chunk => .core (.client, { chunk })

/-- Steps of the control thread late enough for the second command. -/
private def controlling (count : ℕ) : List Observer.Label :=
  List.replicate count (.core (.control, { clock := 9 }))

instance (envelopes : List RustEnvelope) (core : Core) : Decidable (Settled envelopes core) :=
  decidable_of_iff (linesFrom core.shared.commandsIn 0 = commandLines envelopes ∧
      core.shared.commandsIn.length ≤ core.shared.bridge.commandOffset ∧
      ReadLines.inBody core.io = [] ∧ core.shared.router.q = [] ∧
      undecided core.control = none ∧ unpublished core.control = none)
    ⟨fun ⟨hwritten, hconsumed, hio, hqueue, hundecided, hunpublished⟩ =>
        ⟨hwritten, hconsumed, hio, hqueue, hundecided, hunpublished⟩,
      fun ⟨hwritten, hconsumed, hio, hqueue, hundecided, hunpublished⟩ =>
        ⟨hwritten, hconsumed, hio, hqueue, hundecided, hunpublished⟩⟩

/-- Both commands are carried through while the client begins to poll, and it
ends with both polls. -/
private theorem exists_bothSession :
    ∃ (trace later : List (SessionEvent UInt64)) (session last : Session UInt64),
      Run (Observer.system parseWhole) (OnCore (Smooth bothSent)) (.start (freshDir [])) trace
        session ∧
      PolledAfter parseWhole session later last ∧ Settled bothSent session.core ∧
      deliveredResults (pollTrace trace) session.client = [receivedResult 1 drivesDisabled] := by
  obtain ⟨⟨session, trace⟩, hfirst, hsecond⟩ := Option.bind_eq_some_iff.1
    (show ((execute (Observer.system parseWhole) (OnCore (Smooth bothSent))
        (.start (freshDir []))
        (bootSchedule.map .core ++ sending ++ (times 7 .io).map .core ++ controlling 11 ++
          [.poll (.call .results true), .poll (.read true)] ++ controlling 4)).bind fun reached =>
        (execute (Observer.system parseWhole) OnlyPolls reached.1
          [.poll (.read true), .poll (.read true), .poll (.call .telemetry true),
            .poll (.read true)]).map fun result =>
          (decide (Settled bothSent reached.1.core),
            deliveredResults (pollTrace reached.2) reached.1.client, result.2)) =
      some (true, [receivedResult 1 drivesDisabled],
        [.returned (.results [receivedResult 1 drivesDisabled, receivedResult 2 staleResult]),
          .returned (.telemetry [])]) by decide +kernel)
  obtain ⟨⟨last, later⟩, hlater, heq⟩ := Option.map_eq_some_iff.1 hsecond
  obtain ⟨hsettled, hrest⟩ := Prod.mk.inj heq
  obtain ⟨hdelivered, rfl⟩ := Prod.mk.inj hrest
  exact ⟨trace, _, session, last, run_of_execute hfirst,
    ⟨run_of_execute hlater, ⟨[], by simp⟩, ⟨_, List.mem_cons_self⟩⟩,
    of_decide_eq_true hsettled, hdelivered⟩

/-- The first result read while the second command is still to be answered. -/
theorem every_result_replies_stop :
    ∃ (trace : List (SessionEvent UInt64)) (session : Session UInt64)
      (answered : List RustEnvelope),
      Run (Observer.system parseWhole) (OnCore (Sends bothSent)) (.start (freshDir []))
          trace session ∧
        deliveredResults (pollTrace trace) session.client = [receivedResult 1 drivesDisabled] ∧
        answered.Sublist bothSent ∧
        List.Forall₂ Replies answered (deliveredResults (pollTrace trace) session.client) := by
  obtain ⟨trace, later, session, last, hrun, -, -, hdelivered⟩ := exists_bothSession
  have hsends : Run (Observer.system parseWhole) (OnCore (Sends bothSent)) (.start (freshDir []))
      trace session := by
    refine hrun.mono fun _ label hsmooth => ?_
    cases label with
    | core label => exact Smooth.unhindered hsmooth |>.sends
    | poll move => trivial
  obtain ⟨answered, hanswered, hreplies⟩ :=
    every_result_replies parseWhole bothSent (freshDir []) rfl rfl trace session hsends
  exact ⟨trace, session, answered, hsends, hdelivered, hanswered, hreplies⟩

/-- Both results in the end. -/
theorem results_follow_commands_both :
    ∃ (trace later : List (SessionEvent UInt64)) (session last : Session UInt64),
      Run (Observer.system parseWhole) (OnCore (Unhindered bothSent)) (.start (freshDir []))
          trace session ∧
        Settled bothSent session.core ∧ PolledAfter parseWhole session later last ∧
        List.Forall₂ Replies bothSent (returnedResults (pollTrace (trace ++ later))) := by
  obtain ⟨trace, later, session, last, hrun, hpolled, hsettled, -⟩ := exists_bothSession
  have hunhindered : Run (Observer.system parseWhole) (OnCore (Unhindered bothSent))
      (.start (freshDir [])) trace session := by
    refine hrun.mono fun _ label hsmooth => ?_
    cases label with
    | core label => exact Smooth.unhindered hsmooth
    | poll move => trivial
  have hcomplete : ∀ env ∈ bothSent, Complete env := by
    intro env henv
    simp only [bothSent, List.mem_cons, List.not_mem_nil, or_false] at henv
    rcases henv with rfl | rfl <;> exact ⟨by decide, by decide⟩
  exact ⟨trace, later, session, last, hunhindered, hsettled, hpolled,
    (results_follow_commands parseWhole bothSent hcomplete (freshDir []) rfl rfl
      trace session hunhindered).2 hsettled later last hpolled⟩

end ArcravenUgv.EndToEnd
