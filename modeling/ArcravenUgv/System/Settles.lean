import ArcravenUgv.Config.Answered
import ArcravenUgv.System.EndToEnd

/-!
# What a client has sent is answered in the end

The client has written its commands and writes no more.  Then, unless the core is
stopped, there is a time at which each of them has been read, taken, carried out and
published, once and in the order of sending.
-/

namespace ArcravenUgv.Settles

open ArcravenUgv.Command
open ArcravenUgv.Command.CommandRouter
open ArcravenUgv.Delimited
open ArcravenUgv.CommandLine
open ArcravenUgv.Bridge
open ArcravenUgv.RustTransport
open ArcravenUgv.RoundTrip
open ArcravenUgv.Runs
open ArcravenUgv.Fair
open ArcravenUgv.Mutex
open ArcravenUgv.Logger
open ArcravenUgv.Runtime
open ArcravenUgv.Locks
open ArcravenUgv.SelfLock
open ArcravenUgv.ReadLines
open ArcravenUgv.Intake
open ArcravenUgv.Acknowledge
open ArcravenUgv.Verdicts
open ArcravenUgv.Terminates
open ArcravenUgv.Answered
open ArcravenUgv.EndToEnd

section Settles

variable {cfg : Config} {dir : DataDir} {envelopes : List RustEnvelope}
variable {trace : List Event} {core : Core}

/-! ## Room in the queue -/

/-- No more commands are queued than lines have been read. -/
theorem length_queue_le (hrun : Run system Served (powerOn dir) trace core) :
    core.shared.router.q.length ≤ (doneLines trace).length := by
  have hdelivered := congrArg List.length (show _ = _ from Delivered.run hrun)
  have hread := (acceptedLines_sublist trace).length_le
  rw [Parsed.run hrun] at hread
  have hlines := List.length_filterMap_le (fun entry => lineEnvelope entry.2) (doneLines trace)
  rw [List.length_append] at hdelivered
  omega

/-- While the file has no more lines than the queue is long there is room for each. -/
theorem queueRoom_of_few {label : Thread × World}
    (hrun : Run system Served (powerOn dir) trace core)
    (hfew : (linesFrom core.shared.commandsIn 0).length ≤ 256) : QueueRoom core label := by
  intro _ offset line atEnd hpc
  obtain ⟨taken, hconsumed⟩ := Consumed.run (fun _ _ => And.left) hrun
  have hlines := congrArg List.length (congrArg (List.map Prod.snd) hconsumed.lines)
  rw [map_snd_placed, hpc] at hlines
  simp only [ReadLines.inBody, List.length_map, List.length_append, List.length_singleton] at hlines
  have hqueue := length_queue_le hrun
  have hfirst := hconsumed.first.length_le
  rw [(Boot.run hrun).maxQueue]
  omega

theorem queued_of_few (hrun : Run system Served (powerOn dir) trace core)
    (hfew : (linesFrom core.shared.commandsIn 0).length ≤ 256) : Queued trace := by
  induction hrun with
  | start => simp [Queued]
  | @step trace events core next label hrun hserved hstep ih =>
      have hgrown := linesFrom_grows (fun _ _ => And.left) (Run.single hserved hstep)
      have hbefore := hgrown.length_le.trans hfew
      exact (ih hbefore).moves (queueRoom_of_few hrun hbefore) (moves_of_step hstep).path

/-! ## All has been read -/

/-- Every line of the file has been read. -/
structure AllRead (trace : List Event) (core : Core) : Prop where
  done : (doneLines trace).map Prod.snd = linesFrom core.shared.commandsIn 0
  body : ReadLines.inBody core.io = []
  consumed : core.shared.commandsIn.length ≤ core.shared.bridge.commandOffset

theorem allRead_of_isPrefix (hrun : Run system Served (powerOn dir) trace core)
    (hdone : linesFrom core.shared.commandsIn 0 <+: (doneLines trace).map Prod.snd) :
    AllRead trace core := by
  obtain ⟨taken, hconsumed⟩ := Consumed.run (fun _ _ => And.left) hrun
  have hlines := congrArg (List.map Prod.snd) hconsumed.lines
  rw [map_snd_placed, List.map_append] at hlines
  have hlength := congrArg List.length hlines
  rw [List.length_append, List.length_map] at hlength
  have hfirst := hconsumed.first.length_le
  have hall := hdone.length_le
  rw [List.length_map] at hall
  have hbody : ReadLines.inBody core.io = [] := by
    have hnone : ((ReadLines.inBody core.io).map Prod.snd).length = 0 := by omega
    exact List.map_eq_nil_iff.1 (List.eq_nil_of_length_eq_zero hnone)
  rw [hbody, List.map_nil, List.append_nil] at hlines
  have htaken : taken = linesFrom core.shared.commandsIn 0 :=
    hconsumed.first.eq_of_length_le (by rw [← hlines, List.length_map]; exact hall)
  refine ⟨hlines.trans htaken, hbody, ?_⟩
  have hrest := segments_drop_extent (show segments newline core.shared.commandsIn = taken ++ [] by
    rw [List.append_nil, htaken, linesFrom, List.drop_zero])
  rw [segments_eq_nil_iff] at hrest
  rw [hconsumed.offset]
  exact List.drop_eq_nil_iff.1 hrest

/-- Then the commands handed to `submit` are those the client has sent. -/
theorem AllRead.readCommands_eq (hall : AllRead trace core)
    (hrun : Run system Served (powerOn dir) trace core)
    (hcomplete : ∀ env ∈ envelopes, Complete env)
    (hfile : linesFrom core.shared.commandsIn 0 = commandLines envelopes) :
    readCommands trace = envelopes.map RustEnvelope.received := by
  rw [← filterMap_commandLines hcomplete, ← hfile, ← hall.done, List.filterMap_map]
  exact Parsed.run hrun

/-- And if the queue had room for them they were accepted. -/
theorem AllRead.accepted_eq (hall : AllRead trace core)
    (hrun : Run system Served (powerOn dir) trace core)
    (hcomplete : ∀ env ∈ envelopes, Complete env)
    (hfile : linesFrom core.shared.commandsIn 0 = commandLines envelopes)
    (hqueued : Queued trace) :
    (acceptedLines trace).map Prod.snd = envelopes.map RustEnvelope.received := by
  have hread := hall.readCommands_eq hrun hcomplete hfile
  rw [acceptedLines_eq_read hqueued fun env henv => ?_, hread]
  rw [hread] at henv
  obtain ⟨sent, hsent, rfl⟩ := List.mem_map.1 henv
  exact (hcomplete sent hsent).2

/-! ## All is answered -/

/-- The results of all commands sent are in `telemetry.out`, one for each. -/
structure AllAnswered (dir : DataDir) (envelopes : List RustEnvelope) (trace : List Event)
    (core : Core) : Prop where
  settled : Settled envelopes core
  published : publishedCommands trace = envelopes.map RustEnvelope.received
  records : ∀ commandId,
    resultCount commandId (core.shared.telemetryOut.drop dir.telemetryOut.length) =
      (envelopes.map RustEnvelope.commandId).count commandId

/-- When all that was accepted is published nothing is left on the way. -/
theorem AllRead.answered (hall : AllRead trace core)
    (hrun : Run system Served (powerOn dir) trace core)
    (hfile : linesFrom core.shared.commandsIn 0 = commandLines envelopes)
    (haccepted : (acceptedLines trace).map Prod.snd = envelopes.map RustEnvelope.received)
    (hpublished : envelopes.map RustEnvelope.received <+: publishedCommands trace) :
    AllAnswered dir envelopes trace core := by
  have hdelivered : (acceptedLines trace).map Prod.snd =
      dequeuedCommands trace ++ core.shared.router.q := Delivered.run hrun
  have hreconciled : dequeuedCommands trace =
      publishedCommands trace ++ (inProcess core.control).toList :=
    Reconciled.run (fun _ _ hserved => appendsSucceed_of_filesOpen hserved.2) hrun
  rw [haccepted, hreconciled, List.append_assoc] at hdelivered
  have hlength := congrArg List.length hdelivered
  rw [List.length_append, List.length_append] at hlength
  have hmost := hpublished.length_le
  have hprocess : inProcess core.control = none := by
    cases hpc : inProcess core.control with
    | none => rfl
    | some cmd =>
        rw [hpc, Option.toList_some, List.length_singleton] at hlength
        omega
  have hqueue : core.shared.router.q = [] := List.eq_nil_of_length_eq_zero (by omega)
  rw [hprocess, hqueue, Option.toList_none, List.append_nil, List.append_nil] at hdelivered
  refine ⟨⟨hfile, hall.consumed, hall.body, hqueue, ?_, ?_⟩, hdelivered.symm, fun commandId => ?_⟩
  · cases hpc : core.control <;> simp_all [inProcess, undecided]
  · cases hpc : core.control <;> simp_all [inProcess, unpublished]
  · rw [resultCount_eq (Reported.run hrun) commandId, ← hdelivered, List.map_map]
    rfl

end Settles

/-- Once a client has written its commands and writes no more, all of them are answered
in a fair run in which the queue had room for each, unless a stop is requested or `run`
has refused to come up. -/
theorem sent_commands_settle (cfg : Config) (dir : DataDir) (envelopes : List RustEnvelope)
    (hcomplete : ∀ env ∈ envelopes, Complete env)
    (exec : Execution (guarded (restrict system Served) (locking cfg)) (idle (powerOn dir)))
    (hfair : StronglyFair exec Prod.fst) (hquiet : NeverFlushes (unrestrict exec)) (time : ℕ)
    (hwritten : linesFrom (exec.state time).base.shared.commandsIn 0 = commandLines envelopes)
    (hsilent : SilentFrom (unrestrict exec) time)
    (hqueued : ∀ later, Queued (exec.trace later)) :
    ∃ later, time ≤ later ∧ (GivenUp (exec.state later).base ∨
      AllAnswered dir envelopes (exec.trace later) (exec.state later).base) := by
  obtain ⟨other, hother, hstate, hevents⟩ := exists_withoutFlush hfair hquiet
  have htrace : other.trace = exec.trace := funext fun time => by
    rw [Execution.trace, Execution.trace, hevents]
  obtain ⟨read, hread, hlines⟩ := exists_linesRead rfl hother time
  obtain ⟨later, hlater, hpublished⟩ := exists_allPublished rfl hother read
  rw [hstate, htrace] at hlines hpublished
  rcases hlines with hgiven | hlines
  · exact ⟨read, hread, .inl hgiven⟩
  refine ⟨later, hread.trans hlater, hpublished.imp .inl fun hpublished => ?_⟩
  have hfile : ∀ moment, time ≤ moment →
      linesFrom (exec.state moment).base.shared.commandsIn 0 = commandLines envelopes :=
    fun moment hmoment => by
      rw [← hwritten]
      exact congrArg (linesFrom · 0) (hsilent moment hmoment)
  have hall : ∀ moment, read ≤ moment →
      AllRead (exec.trace moment) (exec.state moment).base := fun moment hmoment => by
    refine allRead_of_isPrefix (run_served moment) ?_
    rw [hfile moment (hread.trans hmoment), ← hwritten]
    exact hlines.trans (((exec.trace_mono hmoment).filterMap doneLine).map Prod.snd)
  have haccepted : ∀ moment, read ≤ moment →
      (acceptedLines (exec.trace moment)).map Prod.snd = envelopes.map RustEnvelope.received :=
    fun moment hmoment => (hall moment hmoment).accepted_eq (run_served moment) hcomplete
      (hfile moment (hread.trans hmoment)) (hqueued moment)
  rw [haccepted read (Nat.le_refl _)] at hpublished
  exact (hall later hlater).answered (run_served later) (hfile later (hread.trans hlater))
    (haccepted later hlater) hpublished

/-! ## A signal -/

private def signalSent : RustEnvelope where
  command := .signal
  domain := .interaction
  priority := .normal
  authority := .remoteOperator
  commandId := 1
  issuedNs := 0
  ttlNs := 0
  payloadJson := "flashlight|1|1"

/-- A client has switched the flashlight on and gone. -/
private def signalDir : DataDir := freshDir (OneClient.appends (commandLines [signalSent])).flatten

theorem sent_commands_settle_signal :
    ∃ (exec : Execution (guarded (restrict system Served) (locking (unflushed mainConfig)))
        (idle (powerOn signalDir))) (later : ℕ),
      StronglyFair exec Prod.fst ∧ SilentFrom (unrestrict exec) 0 ∧
        (∀ time, Queued (exec.trace time)) ∧ (GivenUp (exec.state later).base ∨
          AllAnswered signalDir [signalSent] (exec.trace later) (exec.state later).base) := by
  obtain ⟨exec, hfair, hsilent⟩ :=
    exists_served (show (unflushed mainConfig).flushAlways = false from rfl) signalDir
  have hcomplete : ∀ env ∈ [signalSent], Complete env := by
    intro env henv
    obtain rfl := List.mem_singleton.1 henv
    exact ⟨by decide, by decide⟩
  have hlines : linesFrom signalDir.commandsIn 0 = commandLines [signalSent] := by decide +kernel
  have hfile : ∀ time, (exec.state time).base.shared.commandsIn = signalDir.commandsIn :=
    fun time => (hsilent time (Nat.zero_le _)).trans (by
      change (exec.state 0).base.shared.commandsIn = _
      rw [exec.start]
      rfl)
  have hqueued : ∀ time, Queued (exec.trace time) := fun time =>
    queued_of_few (run_served time) (by rw [hfile, hlines]; simp [commandLines])
  obtain ⟨later, -, hanswered⟩ := sent_commands_settle (unflushed mainConfig) signalDir
    [signalSent] hcomplete exec hfair (.inl rfl) 0 (by rw [hfile, hlines]) hsilent hqueued
  exact ⟨exec, later, hfair, hsilent, hqueued, hanswered⟩

end ArcravenUgv.Settles
