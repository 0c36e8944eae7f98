import ArcravenUgv.Config.Intake
import ArcravenUgv.Config.ReadLines

/-!
# Results in `telemetry.out`

Every command the control thread takes off the queue ends in one `R` record.
`pump_rx` has no way to answer: what `submit` refuses leaves no record.
-/

namespace ArcravenUgv.Acknowledge

open ArcravenUgv.Enums
open ArcravenUgv.Command
open ArcravenUgv.Command.CommandRouter
open ArcravenUgv.Decimal
open ArcravenUgv.Delimited
open ArcravenUgv.Handlers
open ArcravenUgv.CommandLine
open ArcravenUgv.Bridge
open ArcravenUgv.Runs
open ArcravenUgv.Runtime
open ArcravenUgv.ReadLines
open ArcravenUgv.Intake

/-! ## The records of a run -/

/-- The line an event appends to `telemetry.out`. -/
def recordLine : Event → Option Bytes
  | .published cmd result => some (resultLine cmd.commandId result)
  | .telemetry frame => some (emptyFrameLine frame.timestampNs)
  | _ => none

def recordLines (trace : List Event) : List Bytes :=
  trace.filterMap recordLine

@[simp]
theorem recordLines_append (trace events : List Event) :
    recordLines (trace ++ events) = recordLines trace ++ recordLines events :=
  List.filterMap_append ..

/-- A handler whose message is one line. -/
def OneLine : Handler → Prop
  | .reply message => newline ∉ message
  | _ => True

instance : DecidablePred OneLine := fun handler => by
  cases handler <;> unfold OneLine <;> infer_instance

theorem oneLine_of_mem : ∀ row ∈ defaultHandlers, OneLine row.2 := by
  decide +kernel

/-- Every message the control thread has in hand is one line. -/
def Clean : ControlPc → Prop
  | .admitting _ _ _ handler => ∀ called, handler = some called → OneLine called
  | .handling _ _ _ (.requestStop result) => newline ∉ result.message
  | .handling _ _ _ (.returned result) => newline ∉ result.message
  | .callback _ _ _ result | .publishing _ _ _ result => newline ∉ result.message
  | _ => True

theorem clean_call {nowNs : UInt64} {left : ℕ} {cmd : CommandEnvelope} {handler : Handler}
    (hhandler : OneLine handler) : Clean (.handling nowNs left cmd (handler.call cmd)) := by
  cases handler with
  | reply message => exact hhandler
  | signal =>
      simp only [Handler.call, Clean, signalResult]
      split <;> decide
  | _ => simp only [Handler.call, Clean]; try decide

theorem clean_handle {shared next : Shared} {nowNs : UInt64} {left : ℕ}
    {cmd : CommandEnvelope} {before after : HandlerPc} {events : List Event}
    (hclean : Clean (.handling nowNs left cmd before))
    (hmoves : HandlerMoves shared before next after events) :
    Clean (.handling nowNs left cmd after) := by
  cases hmoves with
  | requestStop result hpc =>
      subst hpc
      exact hclean
  | _ => simp only [Clean]; try decide

theorem Clean.moves {world : World} {core : Core} {shared : Shared} {pc : ControlPc}
    {events : List Event} (hboot : Boot core) (hclean : Clean core.control)
    (hmoves : ControlMoves world core.shared core.control shared pc events) : Clean pc := by
  cases hmoves with
  | dequeue nowNs left cmd rest hpc hq =>
      intro called hcalled
      have hlookup := Option.join_eq_some_iff.1 hcalled
      rw [hboot.handlers] at hlookup
      obtain ⟨name, hrow, -⟩ := mem_defaultHandlers_of_table hlookup
      exact oneLine_of_mem _ hrow
  | refuse nowNs left cmd handler result hpc hdispatch =>
      rcases dispatch_error_iff.1 hdispatch with ⟨-, rfl⟩ | ⟨-, -, rfl⟩ <;>
        simp only [Clean] <;> decide
  | call nowNs left cmd handler hpc hfresh =>
      rw [hpc] at hclean
      exact clean_call (hclean handler rfl)
  | handle nowNs left cmd before after next events hpc hhandler =>
      rw [hpc] at hclean
      exact clean_handle hclean hhandler
  | handled nowNs left cmd result hpc =>
      rw [hpc] at hclean
      simp only [Clean, settle] at hclean ⊢
      split <;> exact hclean
  | report nowNs left cmd result hpc hrejected =>
      rw [hpc] at hclean
      exact hclean
  | reportStored nowNs left cmd result hpc hrejected =>
      rw [hpc] at hclean
      exact hclean
  | _ => trivial

/-- `telemetry.out` is what it was, followed by the lines of this run. -/
structure Reported (dir : DataDir) (trace : List Event) (core : Core) : Prop where
  file : core.shared.telemetryOut =
    dir.telemetryOut ++ (recordLines trace).flatMap fun line => line ++ [newline]
  lines : ∀ line ∈ recordLines trace, newline ∉ line
  clean : Clean core.control
  frames : ∀ frame, core.sensor = .publishing frame → frame.ids = []

section Reported

variable {dir : DataDir} {trace events : List Event} {core next : Core}

/-- A step that publishes nothing. -/
theorem Reported.quiet (hreported : Reported dir trace core)
    (hfile : next.shared.telemetryOut = core.shared.telemetryOut)
    (hlines : recordLines events = []) (hclean : Clean next.control)
    (hframes : ∀ frame, next.sensor = .publishing frame → frame.ids = []) :
    Reported dir (trace ++ events) next where
  file := by simp [hfile, hlines, hreported.file]
  lines := by simpa [hlines] using hreported.lines
  clean := hclean
  frames := hframes

/-- A step that publishes one line. -/
theorem Reported.publish {line : Bytes} (hreported : Reported dir trace core)
    (hfile : next.shared.telemetryOut = core.shared.telemetryOut ++ (line ++ [newline]))
    (hlines : recordLines events = [line]) (hfree : newline ∉ line)
    (hclean : Clean next.control)
    (hframes : ∀ frame, next.sensor = .publishing frame → frame.ids = []) :
    Reported dir (trace ++ events) next where
  file := by simp [hfile, hlines, hreported.file]
  lines := by
    intro other hother
    rw [recordLines_append, hlines, List.mem_append, List.mem_singleton] at hother
    rcases hother with hother | rfl
    · exact hreported.lines other hother
    · exact hfree
  clean := hclean
  frames := hframes

theorem Reported.control {world : World} {shared : Shared} {pc : ControlPc}
    (hreported : Reported dir trace core) (hboot : Boot core)
    (hmoves : ControlMoves world core.shared core.control shared pc events) :
    Reported dir (trace ++ events) { core with shared := shared, control := pc } := by
  have hclean : Clean pc := hreported.clean.moves hboot hmoves
  cases hmoves with
  | publish nowNs left cmd result hpc =>
      have hmessage := hreported.clean
      rw [hpc] at hmessage
      exact hreported.publish (congrArg _ (publishCommandResult_eq _ _)) rfl
        (newline_not_mem_resultLine _ hmessage) hclean hreported.frames
  | handle nowNs left cmd before after shared events hpc hhandler =>
      cases hhandler <;> exact hreported.quiet rfl rfl hclean hreported.frames
  | _ => exact hreported.quiet rfl rfl hclean hreported.frames

theorem Reported.sensor {shared : Shared} {pc : SensorPc}
    (hreported : Reported dir trace core)
    (hmoves : SensorMoves core.shared core.sensor shared pc events) :
    Reported dir (trace ++ events) { core with shared := shared, sensor := pc } := by
  cases hmoves with
  | advance next hpc hstart hexited hnext =>
      exact hreported.quiet rfl rfl hreported.clean fun frame hframe => (hnext frame hframe).1
  | publish frame hpc =>
      exact hreported.publish (congrArg _ (publishTelemetry_eq _ (hreported.frames frame hpc)))
        rfl (newline_not_mem_emptyFrameLine _) hreported.clean (by simp)
  | exit hpc => exact hreported.quiet rfl rfl hreported.clean (by simp)

theorem Reported.moves {world : World} {thread : Thread} (hreported : Reported dir trace core)
    (hboot : Boot core) (hmoves : Moves world core thread next events) :
    Reported dir (trace ++ events) next := by
  have hclean := hreported.clean
  have hframes := hreported.frames
  cases hmoves with
  | control shared pc events hthread hmoves => exact hreported.control hboot hmoves
  | sensor shared pc events hthread hmoves => exact hreported.sensor hmoves
  | main shared pc events hmoves | estop shared pc events hthread hmoves
  | io shared pc events hthread hmoves | persist shared pc events hthread hmoves =>
      cases hmoves <;> exact hreported.quiet rfl rfl hclean hframes
  | append => exact hreported.quiet rfl rfl hclean hframes

end Reported

theorem Reported.run {allowed : Core → Thread × World → Prop} {dir : DataDir}
    {trace : List Event} {core : Core}
    (hrun : Run system allowed (powerOn dir) trace core) : Reported dir trace core := by
  refine hrun.invariant (Reported dir)
    ⟨by simp [recordLines, powerOn], by simp [recordLines], trivial, by simp [powerOn]⟩ ?_
  intro trace core label next events hrun hreported _ hstep
  exact hreported.moves (Boot.run hrun) (moves_of_step hstep)

/-! ## One result for each command taken -/

def publishedCommand : Event → Option CommandEnvelope
  | .published cmd _ => some cmd
  | _ => none

/-- The commands whose result has been published. -/
def publishedCommands (trace : List Event) : List CommandEnvelope :=
  trace.filterMap publishedCommand

@[simp]
theorem publishedCommands_append (trace events : List Event) :
    publishedCommands (trace ++ events) = publishedCommands trace ++ publishedCommands events :=
  List.filterMap_append ..

/-- The command in process. -/
def inProcess : ControlPc → Option CommandEnvelope
  | .admitting _ _ cmd _ => some cmd
  | .handling _ _ cmd _ => some cmd
  | .callback _ _ cmd _ => some cmd
  | .publishing _ _ cmd _ => some cmd
  | _ => none

/-- The append of a result succeeds. -/
def AppendsSucceed (core : Core) (label : Thread × World) : Prop :=
  ∀ nowNs left cmd result, label.1 = .control →
    core.control = .publishing nowNs left cmd result → label.2.opened = true

/-- What was taken off the queue has been answered, up to the command in
process. -/
def Reconciled (trace : List Event) (core : Core) : Prop :=
  dequeuedCommands trace = publishedCommands trace ++ (inProcess core.control).toList

theorem Reconciled.quiet {trace events : List Event} {core next : Core}
    (hreconciled : Reconciled trace core)
    (hprocess : inProcess next.control = inProcess core.control)
    (hdequeued : dequeuedCommands events = []) (hpublished : publishedCommands events = []) :
    Reconciled (trace ++ events) next := by
  simpa [Reconciled, hprocess, hdequeued, hpublished] using hreconciled

theorem Reconciled.control {trace events : List Event} {world : World} {core : Core}
    {shared : Shared} {pc : ControlPc} (hreconciled : Reconciled trace core) (hboot : Boot core)
    (hallowed : AppendsSucceed core (.control, world)) (hthread : .control ∈ core.shared.threads)
    (hmoves : ControlMoves world core.shared core.control shared pc events) :
    Reconciled (trace ++ events) { core with shared := shared, control := pc } := by
  cases hmoves with
  | dequeue nowNs left cmd rest hpc hq =>
      have hdequeued : dequeuedCommands [.dequeued cmd nowNs] = [cmd] := rfl
      have hpublished : publishedCommands [.dequeued cmd nowNs] = [] := rfl
      simp only [Reconciled, hpc, inProcess] at hreconciled
      simp [Reconciled, inProcess, hdequeued, hpublished, hreconciled]
  | publish nowNs left cmd result hpc =>
      have hdequeued : dequeuedCommands [.published cmd result] = [] := rfl
      have hpublished : publishedCommands [.published cmd result] = [cmd] := rfl
      simp only [Reconciled, hpc, inProcess] at hreconciled
      simp [Reconciled, inProcess, hdequeued, hpublished, hreconciled]
  | publishFailed nowNs left cmd result hpc hfailed =>
      have hopened : world.opened = true := hallowed _ _ _ _ rfl hpc
      simp [hopened, hboot.initialized (hboot.broughtUp hthread)] at hfailed
  | handle nowNs left cmd before after shared events hpc hhandler =>
      have hprocess : inProcess core.control = some cmd := by rw [hpc]; rfl
      cases hhandler <;> exact hreconciled.quiet hprocess.symm rfl rfl
  | _ => exact hreconciled.quiet (by simp_all [inProcess]) rfl rfl

theorem Reconciled.moves {trace events : List Event} {world : World} {core next : Core}
    {thread : Thread} (hreconciled : Reconciled trace core) (hboot : Boot core)
    (hallowed : AppendsSucceed core (thread, world))
    (hmoves : PathMoves world core thread next events) : Reconciled (trace ++ events) next := by
  cases hmoves with
  | control shared pc events hthread hmoves =>
      exact hreconciled.control hboot hallowed hthread hmoves
  | io shared pc events hthread hmoves =>
      cases hmoves <;> exact hreconciled.quiet rfl rfl rfl
  | append => exact hreconciled.quiet rfl rfl rfl
  | aside thread next events haside =>
      refine hreconciled.quiet (by rw [haside.control]) (haside.filterMap_eq_nil ?_)
        (haside.filterMap_eq_nil ?_)
      all_goals
        intro event hevent
        cases event <;> simp_all [Event.OnPath, dequeuedCommand, publishedCommand]

theorem Reconciled.run {allowed : Core → Thread × World → Prop} {dir : DataDir}
    {trace : List Event} {core : Core}
    (hallowed : ∀ core label, allowed core label → AppendsSucceed core label)
    (hrun : Run system allowed (powerOn dir) trace core) : Reconciled trace core := by
  refine hrun.invariant Reconciled rfl ?_
  intro trace core label next events hrun hreconciled hlabel hstep
  exact hreconciled.moves (Boot.run hrun) (hallowed core label hlabel) (moves_of_step hstep).path

/-- The records of a run are the results it has published. -/
theorem resultCount_eq {dir : DataDir} {trace : List Event} {core : Core}
    (hreported : Reported dir trace core) (commandId : UInt64) :
    resultCount commandId (core.shared.telemetryOut.drop dir.telemetryOut.length) =
      ((publishedCommands trace).map CommandEnvelope.commandId).count commandId := by
  rw [hreported.file, List.drop_left, resultCount, segments_flatMap hreported.lines]
  clear hreported
  induction trace with
  | nil => rfl
  | cons event trace ih =>
      cases event with
      | published cmd result =>
          have hlines : recordLines (.published cmd result :: trace) =
              resultLine cmd.commandId result :: recordLines trace := rfl
          have hcommands : publishedCommands (.published cmd result :: trace) =
              cmd :: publishedCommands trace := rfl
          rw [hlines, hcommands, List.countP_cons, ih, List.map_cons, List.count_cons]
          simp [isResultOf_resultLine]
      | telemetry frame =>
          have hlines : recordLines (.telemetry frame :: trace) =
              emptyFrameLine frame.timestampNs :: recordLines trace := rfl
          have hcommands : publishedCommands (.telemetry frame :: trace) =
              publishedCommands trace := rfl
          rw [hlines, hcommands, List.countP_cons, ih]
          simp [not_isResultOf_emptyFrameLine]
      | _ => exact ih

/-! ## Every line is answered -/

/-- The command is still in the queue or in process. -/
def Pending (core : Core) (env : CommandEnvelope) : Prop :=
  env ∈ core.shared.router.q ∨ inProcess core.control = some env

/-- A well-formed line whose turn in `pump_rx` is over is pending, and has no
record, or has exactly one. -/
def Acknowledged (dir : DataDir) (trace : List Event) (core : Core) : Prop :=
  ∀ offset line answer env, .lineDone offset line answer ∈ trace → WellFormed line env →
    Pending core env ∧
        resultCount env.commandId
          (core.shared.telemetryOut.drop dir.telemetryOut.length) = 0 ∨
      resultCount env.commandId
        (core.shared.telemetryOut.drop dir.telemetryOut.length) = 1

/-- No two commands handed to `submit` have the same `command_id`. -/
def DistinctIds (trace : List Event) : Prop :=
  ((readCommands trace).map CommandEnvelope.commandId).Nodup

instance (trace : List Event) : Decidable (DistinctIds trace) :=
  inferInstanceAs (Decidable (List.Nodup _))

theorem acceptedLines_sublist (trace : List Event) :
    ((acceptedLines trace).map Prod.snd).Sublist (readCommands trace) := by
  induction trace with
  | nil => exact List.Sublist.slnil
  | cons event trace ih =>
      rw [acceptedLines, readCommands] at ih ⊢
      rw [List.filterMap_cons, List.filterMap_cons]
      cases event with
      | lineDone offset line answer =>
          cases answer with
          | none => exact ih
          | some read =>
              by_cases haccepted : read.2.status = .accepted
              · simpa [acceptedLine, readCommand, haccepted] using ih
              · simpa [acceptedLine, readCommand, haccepted] using ih.cons read.1
      | _ => exact ih

/-- With room for every well-formed line, a payload and an id in it, and appends
that succeed, every line is acknowledged exactly once. -/
theorem acknowledged_of_room (dir : DataDir) (trace : List Event) (core : Core)
    (hrun : Run system
      (fun core label => RoomFor (fun _ => True) core label ∧ AppendsSucceed core label)
      (powerOn dir) trace core)
    (hids : DistinctIds trace) : Acknowledged dir trace core := by
  intro offset line answer env hmem hline
  have hcount := resultCount_eq (Reported.run hrun) env.commandId
  have hdelivered := Delivered.run hrun
  have hreconciled := Reconciled.run (fun _ _ => And.right) hrun
  obtain rfl := Admitted.run (fun _ _ => And.left) hrun offset line answer env hmem hline trivial
  have haccepted : env ∈ (acceptedLines trace).map Prod.snd :=
    List.mem_map.2 ⟨(offset, env), List.mem_filterMap.2 ⟨_, hmem, rfl⟩, rfl⟩
  have hnodup : ((publishedCommands trace ++
      ((inProcess core.control).toList ++ core.shared.router.q)).map
        CommandEnvelope.commandId).Nodup := by
    rw [← List.append_assoc, ← hreconciled, ← hdelivered]
    exact hids.sublist ((acceptedLines_sublist trace).map _)
  rw [List.map_append] at hnodup
  rw [hdelivered, hreconciled, List.append_assoc, List.mem_append] at haccepted
  rcases haccepted with hpublished | hpending
  · right
    rw [hcount]
    exact List.count_eq_one_of_mem hnodup.of_append_left (List.mem_map_of_mem hpublished)
  · refine Or.inl ⟨by simpa [Pending, or_comm, eq_comm] using hpending, ?_⟩
    rw [hcount, List.count_eq_zero]
    exact fun hmem => (List.nodup_append.1 hnodup).2.2 _ hmem _ (List.mem_map_of_mem hpending) rfl

/-- Distinct ids in a file of whole lines are distinct ids in `submit`. -/
theorem distinctIds_of_file {allowed : Core → Thread × World → Prop} {dir : DataDir}
    {trace : List Event} {core : Core}
    (hallowed : ∀ core label, allowed core label → WholeLines core label)
    (hrun : Run system allowed (powerOn dir) trace core)
    (hfile : (((linesFrom core.shared.commandsIn 0).filterMap lineEnvelope).map
      CommandEnvelope.commandId).Nodup) : DistinctIds trace :=
  hfile.sublist ((readCommands_sublist hallowed hrun).map _)

/-- Every file the core opens opens. -/
def Opens (_ : Core) (label : Thread × World) : Prop := label.2.opened = true

instance (core : Core) (label : Thread × World) : Decidable (Opens core label) :=
  inferInstanceAs (Decidable (_ = _))

theorem appendsSucceed_of_opens {core : Core} {label : Thread × World}
    (hopens : Opens core label) : AppendsSucceed core label :=
  fun _ _ _ _ _ _ => hopens

private def goTo : CommandEnvelope := plainCommand .goTo 1

/-- A `GoTo` from its line to its record. -/
private def goToTrace : List Event :=
  [submitted 0 "C|1|101|0|0|0|0|0|AA==" goTo, .stored { coldState with lastAuthority := 0 },
    .dequeued goTo 0, .handlerCalled goTo] ++
      reported goTo (accepted (ascii "GoTo accepted (stub)"))

theorem acknowledged_goTo :
    ∃ core, Run system
        (fun core label => RoomFor (fun _ => True) core label ∧ AppendsSucceed core label)
        (powerOn (freshDir (ascii "C|1|101|0|0|0|0|0|AA==\n"))) goToTrace core ∧
      Acknowledged (freshDir (ascii "C|1|101|0|0|0|0|0|AA==\n")) goToTrace core := by
  obtain ⟨core, hrun⟩ := exists_run_of_trace system
    (fun core label => Queueable core label ∧ Opens core label)
    (powerOn (freshDir (ascii "C|1|101|0|0|0|0|0|AA==\n")))
    (bootSchedule ++ times 5 .io ++ times 9 .control)
    (show _ = some goToTrace by decide +kernel)
  have hroom : Run system
      (fun core label => RoomFor (fun _ => True) core label ∧ AppendsSucceed core label)
      (powerOn (freshDir (ascii "C|1|101|0|0|0|0|0|AA==\n"))) goToTrace core := by
    refine hrun.mono ?_
    rintro core label ⟨hqueueable, hopens⟩
    exact ⟨roomFor_of_queueable _ hqueueable, appendsSucceed_of_opens hopens⟩
  exact ⟨core, hroom, acknowledged_of_room _ _ core hroom (by decide)⟩

private def nameless : CommandEnvelope := plainCommand .goTo 0

/-- A `GoTo` with `command_id` 0 is refused by `submit`, and nothing ever says
so. -/
theorem refused_without_record :
    ∃ (dir : DataDir) (trace : List Event) (core : Core),
      Run system AppendsSucceed (powerOn dir) trace core ∧ DistinctIds trace ∧
        ¬ Acknowledged dir trace core := by
  obtain ⟨core, hrun, hview⟩ := exists_run_of_execute system Opens
    (powerOn (freshDir (plainLine .goTo 0 ++ [newline]))) (bootSchedule ++ times 5 .io)
    (fun core => decide (core.shared.router.q = [] ∧ core.control = .start ∧
      core.shared.telemetryOut = []))
    (show _ = some ([.lineDone 0 (plainLine .goTo 0) (some (nameless, commandIdZero))], true) by
      decide +kernel)
  obtain ⟨hqueue, hcontrol, hfile⟩ := of_decide_eq_true hview
  refine ⟨_, _, core, hrun.mono fun _ _ => appendsSucceed_of_opens, by decide +kernel,
    fun hacknowledged => ?_⟩
  have hline := hacknowledged 0 _ (some (nameless, commandIdZero)) nameless (by simp)
    (wellFormed_plainLine .goTo 0)
  rcases hline with ⟨hpending, -⟩ | hrecord
  · rcases hpending with hqueued | hprocess
    · simp [hqueue] at hqueued
    · simp [hcontrol, inProcess] at hprocess
  · simp [hfile, resultCount] at hrecord

end ArcravenUgv.Acknowledge
