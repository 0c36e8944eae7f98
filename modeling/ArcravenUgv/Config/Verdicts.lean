import ArcravenUgv.Config.Acknowledge
import ArcravenUgv.Config.EStopRun

/-!
# What a result says

The result the callback is given for a command is that of the command's own
handler, or names the reason why no handler was called.  A result that is not a
rejection is never given before the handler has done its work, and nothing
undoes that work later.
-/

namespace ArcravenUgv.Verdicts

open ArcravenUgv.Enums
open ArcravenUgv.Command
open ArcravenUgv.Command.CommandRouter
open ArcravenUgv.Decimal
open ArcravenUgv.Handlers
open ArcravenUgv.Runs
open ArcravenUgv.Runtime
open ArcravenUgv.EStopRun
open ArcravenUgv.Acknowledge

/-! ## Answers -/

/-- The results a handler may return. -/
inductive Returns (cmd : CommandEnvelope) : Handler → CommandResult → Prop
  | emergencyStop : Returns cmd .emergencyStop estopLatched
  | shutdown : Returns cmd .shutdown shutdownRequested
  | stop : Returns cmd .stop drivesDisabled
  | stopRefused : Returns cmd .stop lockedOut
  | reboot : Returns cmd .reboot rebootRequested
  | signal : Returns cmd .signal (signalResult cmd)
  | reply (message : Bytes) : Returns cmd (.reply message) (accepted message)

/-- The result is one the command may be given when it is taken off the queue at
`nowNs`. -/
inductive Answers (cmd : CommandEnvelope) (nowNs : UInt64) : CommandResult → Prop
  | stale (hexpired : isExpired cmd nowNs = true) : Answers cmd nowNs staleResult
  | unsupported (hfresh : isExpired cmd nowNs = false)
      (hunnamed : ∀ name : UgvCommand, name.wire ≠ cmd.command) :
      Answers cmd nowNs unsupportedResult
  | handled (name : UgvCommand) (handler : Handler) (result : CommandResult)
      (hfresh : isExpired cmd nowNs = false) (hname : name.wire = cmd.command)
      (hrow : (name, handler) ∈ defaultHandlers) (hreturns : Returns cmd handler result) :
      Answers cmd nowNs result

/-- `settle` changes no result of a default handler. -/
theorem Returns.settle_eq {cmd : CommandEnvelope} {handler : Handler} {result : CommandResult}
    (hreturns : Returns cmd handler result) : settle result = result := by
  have hstatus : result.status ≠ .none := by
    cases hreturns with
    | signal =>
        unfold signalResult
        split_ifs <;> simp [accepted]
    | _ => simp [estopLatched, shutdownRequested, drivesDisabled, lockedOut, rebootRequested,
        accepted, succeeded]
  rw [settle, if_neg hstatus]

/-- Every enumerator of `UgvCommand` has a handler. -/
theorem table_wire (name : UgvCommand) :
    (table defaultHandlers.length name.wire).join.isSome = true := by
  cases name <;> decide +kernel

theorem row_of_wire : ∀ row ∈ defaultHandlers, ∀ other ∈ defaultHandlers,
    row.1.wire = other.1.wire → row = other := by
  decide +kernel

/-- A command without a handler is none of the enumerators. -/
theorem unnamed_of_table {key : UInt16}
    (hnone : (table defaultHandlers.length key).join = none) (name : UgvCommand) :
    name.wire ≠ key := by
  rintro rfl
  simpa [hnone] using table_wire name

/-! ## What has been done -/

/-- A command that was not rejected has been carried out. -/
structure Done (shared : Shared) (cmd : CommandEnvelope) (result : CommandResult) : Prop where
  emergencyStop : cmd.command = UgvCommand.emergencyStop.wire → result.status ≠ .rejected →
    shared.estop.latched = true ∧ shared.estop.reason = some (ascii "EmergencyStop command")
  stops : cmd.command ∈ [UgvCommand.emergencyStop.wire, UgvCommand.shutdown.wire,
    UgvCommand.reboot.wire] → result.status ≠ .rejected → shared.stop.stop = true
  stop : cmd.command = UgvCommand.stop.wire → result.status ≠ .rejected →
    shared.drives.enabled = false
  lockedOut : result.rejectReason = .safetyLockout → shared.estop.latched = true

/-- What no later step undoes. -/
structure Onward (before after : Shared) : Prop where
  latched : before.estop.latched = true → after.estop.latched = true
  reason : before.estop.reason = some (ascii "EmergencyStop command") →
    after.estop.reason = some (ascii "EmergencyStop command")
  stop : before.stop.stop = true → after.stop.stop = true
  drives : before.drives.enabled = false → after.drives.enabled = false

theorem Onward.refl (shared : Shared) : Onward shared shared := ⟨id, id, id, id⟩

theorem Done.onward {before after : Shared} {cmd : CommandEnvelope} {result : CommandResult}
    (hdone : Done before cmd result) (honward : Onward before after) : Done after cmd result where
  emergencyStop := fun hcmd hstatus =>
    (hdone.emergencyStop hcmd hstatus).imp honward.latched honward.reason
  stops := fun hcmd hstatus => honward.stop (hdone.stops hcmd hstatus)
  stop := fun hcmd hstatus => honward.drives (hdone.stop hcmd hstatus)
  lockedOut := fun hreason => honward.latched (hdone.lockedOut hreason)

/-- Only the call that enables the drives undoes anything. -/
theorem onward_of_moves {world : World} {core next : Core} {thread : Thread}
    {events : List Event} (hmoves : Moves world core thread next events)
    (hmain : thread = .main → core.main ≠ .enable) : Onward core.shared next.shared := by
  refine ⟨latched_mono hmoves, ?_, stop_mono hmoves, ?_⟩
  · cases hmoves with
    | append => exact id
    | main shared pc events hmoves | estop shared pc events hthread hmoves
    | sensor shared pc events hthread hmoves | io shared pc events hthread hmoves
    | persist shared pc events hthread hmoves => cases hmoves <;> exact id
    | control shared pc events hthread hmoves =>
        cases hmoves with
        | handle nowNs left cmd before after shared events hpc hhandler =>
            cases hhandler <;> first | exact id | exact fun _ => rfl
        | _ => exact id
  · cases hmoves with
    | append => exact id
    | main shared pc events hmoves =>
        cases hmoves with
        | enable hpc => exact absurd hpc (hmain rfl)
        | _ => first | exact id | exact fun _ => rfl
    | estop shared pc events hthread hmoves =>
        cases hmoves <;> first | exact id | exact fun _ => rfl
    | sensor shared pc events hthread hmoves | io shared pc events hthread hmoves
    | persist shared pc events hthread hmoves => cases hmoves <;> exact id
    | control shared pc events hthread hmoves =>
        cases hmoves with
        | handle nowNs left cmd before after shared events hpc hhandler =>
            cases hhandler <;> first | exact id | exact fun _ => rfl
        | _ => exact id

/-! ## The handler at work -/

/-- Where a handler called for the command may be. -/
inductive At (cmd : CommandEnvelope) : Handler → HandlerPc → Prop
  | triggerExchange : At cmd .emergencyStop .triggerExchange
  | triggerStore : At cmd .emergencyStop .triggerStore
  | requestStop (handler : Handler) (result : CommandResult)
      (hhandler : handler = .emergencyStop ∨ handler = .shutdown ∨ handler = .reboot)
      (hreturns : Returns cmd handler result) : At cmd handler (.requestStop result)
  | testLatch : At cmd .stop .testLatch
  | disableDrives : At cmd .stop .disableDrives
  | returned (handler : Handler) (result : CommandResult) (hreturns : Returns cmd handler result) :
      At cmd handler (.returned result)

theorem at_call (cmd : CommandEnvelope) (handler : Handler) :
    At cmd handler (handler.call cmd) := by
  cases handler with
  | emergencyStop => exact .triggerExchange
  | shutdown => exact .requestStop _ _ (.inr (.inl rfl)) .shutdown
  | stop => exact .testLatch
  | reboot => exact .requestStop _ _ (.inr (.inr rfl)) .reboot
  | signal => exact .returned _ _ .signal
  | reply message => exact .returned _ _ (.reply message)

theorem At.moves {shared next : Shared} {cmd : CommandEnvelope} {handler : Handler}
    {before after : HandlerPc} {events : List Event} (hat : At cmd handler before)
    (hmoves : HandlerMoves shared before next after events) : At cmd handler after := by
  cases hmoves with
  | latch hpc hlatched =>
      subst hpc
      cases hat
      exact .triggerStore
  | latchedBefore hpc hlatched | storeReason hpc =>
      subst hpc
      cases hat
      exact .requestStop _ _ (.inl rfl) .emergencyStop
  | requestStop result hpc =>
      subst hpc
      cases hat with
      | requestStop handler result hhandler hreturns => exact .returned _ _ hreturns
  | refuse hpc hlatched =>
      subst hpc
      cases hat
      exact .returned _ _ .stopRefused
  | permit hpc hlatched =>
      subst hpc
      cases hat
      exact .disableDrives
  | disableDrives hpc =>
      subst hpc
      cases hat
      exact .returned _ _ .stop

/-- The handler in hand is the command's own, and so is its result. -/
def Sound : ControlPc → Prop
  | .admitting _ _ cmd handler =>
      handler = (table defaultHandlers.length cmd.command).join
  | .handling nowNs _ cmd pc => isExpired cmd nowNs = false ∧
      ∃ (name : UgvCommand) (handler : Handler), name.wire = cmd.command ∧
        (name, handler) ∈ defaultHandlers ∧ At cmd handler pc
  | .callback nowNs _ cmd result => Answers cmd nowNs result
  | _ => True

theorem Sound.moves {world : World} {core : Core} {shared : Shared} {pc : ControlPc}
    {events : List Event} (hboot : Boot core) (hsound : Sound core.control)
    (hmoves : ControlMoves world core.shared core.control shared pc events) : Sound pc := by
  cases hmoves with
  | dequeue nowNs left cmd rest hpc hq =>
      rw [Sound, hboot.handlers_of_control (by simp [hpc])]
  | refuse nowNs left cmd handler result hpc hdispatch =>
      rw [hpc] at hsound
      rcases dispatch_error_iff.1 hdispatch with ⟨hexpired, rfl⟩ | ⟨hfresh, rfl, rfl⟩
      · exact .stale hexpired
      · exact .unsupported hfresh (unnamed_of_table hsound.symm)
  | call nowNs left cmd handler hpc hfresh =>
      rw [hpc] at hsound
      obtain ⟨name, hrow, hname⟩ :=
        mem_defaultHandlers_of_table (Option.join_eq_some_iff.1 hsound.symm)
      exact ⟨hfresh, name, handler, hname, hrow, at_call cmd handler⟩
  | handle nowNs left cmd before after shared events hpc hhandler =>
      rw [hpc] at hsound
      obtain ⟨hfresh, name, handler, hname, hrow, hat⟩ := hsound
      exact ⟨hfresh, name, handler, hname, hrow, hat.moves hhandler⟩
  | handled nowNs left cmd result hpc =>
      rw [hpc] at hsound
      obtain ⟨hfresh, name, handler, hname, hrow, hat⟩ := hsound
      cases hat with
      | returned handler result hreturns =>
          rw [hreturns.settle_eq]
          exact .handled name handler result hfresh hname hrow hreturns
  | _ => trivial

/-- How far a handler has come. -/
def Progress (shared : Shared) : ControlPc → Prop
  | .handling _ _ _ .triggerStore => shared.estop.latched = true
  | .handling _ _ cmd (.requestStop _) => cmd.command = UgvCommand.emergencyStop.wire →
      shared.estop.latched = true ∧ shared.estop.reason = some (ascii "EmergencyStop command")
  | .handling _ _ cmd (.returned result) => Done shared cmd result
  | .callback _ _ cmd result => Done shared cmd result
  | _ => True

theorem Progress.onward {before after : Shared} {pc : ControlPc} (hprogress : Progress before pc)
    (honward : Onward before after) : Progress after pc := by
  cases pc with
  | callback nowNs left cmd result => exact Done.onward hprogress honward
  | handling nowNs left cmd pc =>
      cases pc with
      | triggerStore => exact honward.latched hprogress
      | requestStop result =>
          exact fun hcmd => (hprogress hcmd).imp honward.latched honward.reason
      | returned result => exact Done.onward hprogress honward
      | _ => trivial
  | _ => trivial

/-- The handler of a command that does more than answer. -/
theorem handler_of_wire {cmd : CommandEnvelope} {name : UgvCommand} {handler : Handler}
    (hname : name.wire = cmd.command) (hrow : (name, handler) ∈ defaultHandlers)
    (other : UgvCommand × Handler) (hother : other ∈ defaultHandlers)
    (hcmd : cmd.command = other.1.wire) : handler = other.2 :=
  congrArg Prod.snd (row_of_wire _ hrow other hother (hname.trans hcmd))

theorem handler_of_stops {cmd : CommandEnvelope} {name : UgvCommand} {handler : Handler}
    (hname : name.wire = cmd.command) (hrow : (name, handler) ∈ defaultHandlers)
    (hcmd : cmd.command ∈ [UgvCommand.emergencyStop.wire, UgvCommand.shutdown.wire,
      UgvCommand.reboot.wire]) :
    handler = .emergencyStop ∨ handler = .shutdown ∨ handler = .reboot := by
  simp only [List.mem_cons, List.not_mem_nil, or_false] at hcmd
  rcases hcmd with hcmd | hcmd | hcmd
  · exact .inl (handler_of_wire hname hrow (.emergencyStop, .emergencyStop) (by decide) hcmd)
  · exact .inr (.inl (handler_of_wire hname hrow (.shutdown, .shutdown) (by decide) hcmd))
  · exact .inr (.inr (handler_of_wire hname hrow (.reboot, .reboot) (by decide) hcmd))

/-- A handler that has returned has done its work. -/
theorem done_of_handler {shared next : Shared} {cmd : CommandEnvelope} {name : UgvCommand}
    {handler : Handler} {nowNs : UInt64} {left : ℕ} {before : HandlerPc} {result : CommandResult}
    {events : List Event} (hname : name.wire = cmd.command)
    (hrow : (name, handler) ∈ defaultHandlers) (hat : At cmd handler before)
    (hprogress : Progress shared (.handling nowNs left cmd before))
    (hmoves : HandlerMoves shared before next (.returned result) events) :
    Done next cmd result := by
  cases hmoves with
  | requestStop result hpc =>
      subst hpc
      cases hat with
      | requestStop handler result hhandler hreturns =>
          refine ⟨fun hcmd _ => hprogress hcmd, fun _ _ => rfl, fun hcmd _ => ?_, fun hreason => ?_⟩
          · obtain rfl := handler_of_wire hname hrow (.stop, .stop) (by decide) hcmd
            simp at hhandler
          · rcases hhandler with rfl | rfl | rfl <;> cases hreturns <;> cases hreason
  | refuse hpc hlatched =>
      exact ⟨fun _ h => absurd rfl h, fun _ h => absurd rfl h, fun _ h => absurd rfl h,
        fun _ => hlatched⟩
  | disableDrives hpc =>
      subst hpc
      cases hat
      refine ⟨fun hcmd _ => ?_, fun hcmd _ => ?_, fun _ _ => rfl, fun hreason => ?_⟩
      · cases handler_of_wire hname hrow (.emergencyStop, .emergencyStop) (by decide) hcmd
      · simpa using handler_of_stops hname hrow hcmd
      · cases hreason

/-- A handler that only answers has nothing to do. -/
theorem done_of_call (shared : Shared) {cmd : CommandEnvelope} {name : UgvCommand}
    {handler : Handler} {result : CommandResult} (hname : name.wire = cmd.command)
    (hrow : (name, handler) ∈ defaultHandlers) (hcall : handler.call cmd = .returned result) :
    Done shared cmd result := by
  have hanswers : handler = .signal ∨ ∃ message, handler = .reply message := by
    cases handler <;> simp_all [Handler.call]
  have hreason : result.rejectReason = .none := by
    rcases hanswers with rfl | ⟨message, rfl⟩ <;> cases hcall
    · unfold signalResult
      split_ifs <;> rfl
    · rfl
  refine ⟨fun hcmd _ => ?_, fun hcmd _ => ?_, fun hcmd _ => ?_, fun hlocked => ?_⟩
  · have hstops := handler_of_stops hname hrow (by simp [hcmd])
    rcases hanswers with rfl | ⟨message, rfl⟩ <;> simp at hstops
  · have hstops := handler_of_stops hname hrow hcmd
    rcases hanswers with rfl | ⟨message, rfl⟩ <;> simp at hstops
  · have hstop := handler_of_wire hname hrow (.stop, .stop) (by decide) hcmd
    rcases hanswers with rfl | ⟨message, rfl⟩ <;> cases hstop
  · cases hreason.symm.trans hlocked

/-- A command refused before any handler ran. -/
theorem done_of_refused (shared : Shared) {cmd : CommandEnvelope} {handler : Option Handler}
    {nowNs : UInt64} {result : CommandResult}
    (hdispatch : dispatch cmd handler nowNs = .error result) : Done shared cmd result := by
  have hresult : result.status = .rejected ∧ result.rejectReason ≠ .safetyLockout := by
    rcases dispatch_error_iff.1 hdispatch with ⟨-, rfl⟩ | ⟨-, -, rfl⟩ <;>
      simp [staleResult, unsupportedResult]
  exact ⟨fun _ h => absurd hresult.1 h, fun _ h => absurd hresult.1 h,
    fun _ h => absurd hresult.1 h, fun h => absurd h hresult.2⟩

/-! ## The commands taken and their results -/

def takenCommand : Event → Option (CommandEnvelope × UInt64)
  | .dequeued cmd nowNs => some (cmd, nowNs)
  | _ => none

def verdict : Event → Option (CommandEnvelope × CommandResult)
  | .processed cmd result => some (cmd, result)
  | _ => none

def publishedResult : Event → Option (CommandEnvelope × CommandResult)
  | .published cmd result => some (cmd, result)
  | _ => none

/-- The commands taken off the queue, each with the time held against it. -/
def takenCommands (trace : List Event) : List (CommandEnvelope × UInt64) :=
  trace.filterMap takenCommand

/-- What the callback was given. -/
def verdicts (trace : List Event) : List (CommandEnvelope × CommandResult) :=
  trace.filterMap verdict

def publishedResults (trace : List Event) : List (CommandEnvelope × CommandResult) :=
  trace.filterMap publishedResult

@[simp]
theorem takenCommands_append (trace events : List Event) :
    takenCommands (trace ++ events) = takenCommands trace ++ takenCommands events :=
  List.filterMap_append ..

@[simp]
theorem verdicts_append (trace events : List Event) :
    verdicts (trace ++ events) = verdicts trace ++ verdicts events :=
  List.filterMap_append ..

@[simp]
theorem publishedResults_append (trace events : List Event) :
    publishedResults (trace ++ events) = publishedResults trace ++ publishedResults events :=
  List.filterMap_append ..

theorem takenCommands_fst (trace : List Event) :
    (takenCommands trace).map Prod.fst = Intake.dequeuedCommands trace := by
  rw [takenCommands, Intake.dequeuedCommands, List.map_filterMap]
  exact congrArg (List.filterMap · trace) (funext fun event => by cases event <;> rfl)

/-- The command that was taken and has no verdict yet. -/
def undecided : ControlPc → Option (CommandEnvelope × UInt64)
  | .admitting nowNs _ cmd _ => some (cmd, nowNs)
  | .handling nowNs _ cmd _ => some (cmd, nowNs)
  | .callback nowNs _ cmd _ => some (cmd, nowNs)
  | _ => none

/-- The verdict answers the command. -/
def Decides (taken : CommandEnvelope × UInt64) (verdict : CommandEnvelope × CommandResult) :
    Prop :=
  verdict.1 = taken.1 ∧ Answers taken.1 taken.2 verdict.2

/-- Every command taken has its verdict, in order, up to the one in hand. -/
def Decided (trace : List Event) (core : Core) : Prop :=
  ∃ decided, takenCommands trace = decided ++ (undecided core.control).toList ∧
    List.Forall₂ Decides decided (verdicts trace)

theorem Decided.quiet {trace events : List Event} {core next : Core}
    (hdecided : Decided trace core)
    (hundecided : undecided next.control = undecided core.control)
    (htaken : takenCommands events = []) (hverdicts : verdicts events = []) :
    Decided (trace ++ events) next := by
  obtain ⟨decided, hcommands, hmatch⟩ := hdecided
  exact ⟨decided, by simp [hcommands, htaken, hundecided], by simpa [hverdicts] using hmatch⟩

/-- The callback is given the result in hand. -/
theorem Decided.report {trace events : List Event} {core next : Core} {nowNs : UInt64} {left : ℕ}
    {cmd : CommandEnvelope} {result : CommandResult} (hdecided : Decided trace core)
    (hpc : core.control = .callback nowNs left cmd result) (hanswers : Answers cmd nowNs result)
    (hundecided : undecided next.control = none) (htaken : takenCommands events = [])
    (hverdicts : verdicts events = [(cmd, result)]) : Decided (trace ++ events) next := by
  obtain ⟨decided, hcommands, hmatch⟩ := hdecided
  refine ⟨decided ++ [(cmd, nowNs)], ?_, ?_⟩
  · rw [takenCommands_append, hcommands, hpc, htaken, hundecided]
    simp [undecided]
  · rw [verdicts_append, hverdicts]
    exact List.rel_append hmatch (.cons ⟨rfl, hanswers⟩ .nil)

theorem Decided.control {trace events : List Event} {world : World} {core : Core}
    {shared : Shared} {pc : ControlPc} (hdecided : Decided trace core)
    (hsound : Sound core.control)
    (hmoves : ControlMoves world core.shared core.control shared pc events) :
    Decided (trace ++ events) { core with shared := shared, control := pc } := by
  cases hmoves with
  | dequeue nowNs left cmd rest hpc hq =>
      obtain ⟨decided, hcommands, hmatch⟩ := hdecided
      have htaken : takenCommands [.dequeued cmd nowNs] = [(cmd, nowNs)] := rfl
      have hverdicts : verdicts [.dequeued cmd nowNs] = [] := rfl
      refine ⟨decided, ?_, by simpa [hverdicts] using hmatch⟩
      simp [hcommands, hpc, htaken, undecided]
  | report nowNs left cmd result hpc hrejected | reportStored nowNs left cmd result hpc hrejected =>
      rw [hpc] at hsound
      exact hdecided.report hpc hsound rfl rfl rfl
  | handle nowNs left cmd before after shared events hpc hhandler =>
      have hundecided : undecided core.control = some (cmd, nowNs) := by rw [hpc]; rfl
      cases hhandler <;> exact hdecided.quiet hundecided.symm rfl rfl
  | _ => exact hdecided.quiet (by simp_all [undecided]) rfl rfl

theorem Decided.moves {trace events : List Event} {world : World} {core next : Core}
    {thread : Thread} (hdecided : Decided trace core) (hsound : Sound core.control)
    (hmoves : PathMoves world core thread next events) : Decided (trace ++ events) next := by
  cases hmoves with
  | control shared pc events hthread hmoves => exact hdecided.control hsound hmoves
  | io shared pc events hthread hmoves => cases hmoves <;> exact hdecided.quiet rfl rfl rfl
  | append => exact hdecided.quiet rfl rfl rfl
  | aside thread next events haside =>
      refine hdecided.quiet (by rw [haside.control]) (haside.filterMap_eq_nil ?_)
        (haside.filterMap_eq_nil ?_)
      all_goals
        intro event hevent
        cases event <;> simp_all [Event.OnPath, takenCommand, verdict]

/-- A verdict answers one of the commands taken. -/
theorem exists_of_forall₂ {decided : List (CommandEnvelope × UInt64)}
    {given : List (CommandEnvelope × CommandResult)} (hmatch : List.Forall₂ Decides decided given)
    {verdict : CommandEnvelope × CommandResult} (hmem : verdict ∈ given) :
    ∃ taken ∈ decided, Decides taken verdict := by
  induction hmatch with
  | nil => cases hmem
  | cons hhead _ ih =>
      rcases List.mem_cons.1 hmem with rfl | hmem
      · exact ⟨_, List.mem_cons_self, hhead⟩
      · obtain ⟨taken, htaken, hdecides⟩ := ih hmem
        exact ⟨taken, List.mem_cons_of_mem _ htaken, hdecides⟩

theorem map_fst_of_decides {decided : List (CommandEnvelope × UInt64)}
    {given : List (CommandEnvelope × CommandResult)} (hmatch : List.Forall₂ Decides decided given) :
    given.map Prod.fst = decided.map Prod.fst := by
  induction hmatch with
  | nil => rfl
  | cons hhead _ ih => rw [List.map_cons, List.map_cons, hhead.1, ih]

/-- The commands with a verdict and the one in hand are those taken off the queue. -/
theorem Decided.verdicts_fst {trace : List Event} {core : Core} (hdecided : Decided trace core) :
    (verdicts trace).map Prod.fst ++ (undecided core.control).toList.map Prod.fst =
      Intake.dequeuedCommands trace := by
  obtain ⟨decided, htaken, hmatch⟩ := hdecided
  rw [map_fst_of_decides hmatch, ← List.map_append, ← htaken, takenCommands_fst]

/-- The result that has a verdict and has not been published yet. -/
def unpublished : ControlPc → Option (CommandEnvelope × CommandResult)
  | .publishing _ _ cmd result => some (cmd, result)
  | _ => none

/-- What is published are verdicts in their order; one whose append fails is left
out. -/
def InOrder (trace : List Event) (core : Core) : Prop :=
  (publishedResults trace ++ (unpublished core.control).toList).Sublist (verdicts trace)

/-- With appends that succeed none is left out. -/
def AllPublished (trace : List Event) (core : Core) : Prop :=
  verdicts trace = publishedResults trace ++ (unpublished core.control).toList

/-- What a step does to the verdicts and to those published. -/
inductive VerdictMoves (label : Thread × World) (core next : Core) (events : List Event) : Prop
  | quiet (hunpublished : unpublished next.control = unpublished core.control)
      (hverdicts : verdicts events = []) (hpublished : publishedResults events = [])
  | report (cmd : CommandEnvelope) (result : CommandResult)
      (hbefore : unpublished core.control = none)
      (hunpublished : unpublished next.control = some (cmd, result))
      (hverdicts : verdicts events = [(cmd, result)]) (hpublished : publishedResults events = [])
  | publish (cmd : CommandEnvelope) (result : CommandResult)
      (hbefore : unpublished core.control = some (cmd, result))
      (hunpublished : unpublished next.control = none)
      (hverdicts : verdicts events = []) (hpublished : publishedResults events = [(cmd, result)])
  | lose (nowNs : UInt64) (left : ℕ) (cmd : CommandEnvelope) (result : CommandResult)
      (hthread : label.1 = .control ∧ .control ∈ core.shared.threads)
      (hbefore : core.control = .publishing nowNs left cmd result)
      (hfailed : (core.shared.bridge.initialized && label.2.opened) = false)
      (hunpublished : unpublished next.control = none)
      (hverdicts : verdicts events = []) (hpublished : publishedResults events = [])

theorem verdictMoves_of_control {world : World} {core : Core} {shared : Shared} {pc : ControlPc}
    {events : List Event} (hthread : .control ∈ core.shared.threads)
    (hmoves : ControlMoves world core.shared core.control shared pc events) :
    VerdictMoves (.control, world) core { core with shared := shared, control := pc } events := by
  cases hmoves with
  | report nowNs left cmd result hpc hrejected | reportStored nowNs left cmd result hpc hrejected =>
      exact .report cmd result (by rw [hpc]; rfl) rfl rfl rfl
  | publish nowNs left cmd result hpc =>
      exact .publish cmd result (by rw [hpc]; rfl) rfl rfl rfl
  | publishFailed nowNs left cmd result hpc hfailed =>
      exact .lose nowNs left cmd result ⟨rfl, hthread⟩ hpc hfailed rfl rfl rfl
  | handle nowNs left cmd before after shared events hpc hhandler =>
      have hunpublished : unpublished core.control = none := by rw [hpc]; rfl
      cases hhandler <;> exact .quiet hunpublished.symm rfl rfl
  | _ => exact .quiet (by simp_all [unpublished]) rfl rfl

theorem verdictMoves_of_path {world : World} {core next : Core} {thread : Thread}
    {events : List Event} (hmoves : PathMoves world core thread next events) :
    VerdictMoves (thread, world) core next events := by
  cases hmoves with
  | control shared pc events hthread hmoves => exact verdictMoves_of_control hthread hmoves
  | io shared pc events hthread hmoves => cases hmoves <;> exact .quiet rfl rfl rfl
  | append => exact .quiet rfl rfl rfl
  | aside thread next events haside =>
      refine .quiet (by rw [haside.control]) (haside.filterMap_eq_nil ?_)
        (haside.filterMap_eq_nil ?_)
      all_goals
        intro event hevent
        cases event <;> simp_all [Event.OnPath, verdict, publishedResult]

theorem InOrder.run {allowed : Core → Thread × World → Prop} {dir : DataDir}
    {trace : List Event} {core : Core}
    (hrun : Run system allowed (powerOn dir) trace core) : InOrder trace core := by
  refine hrun.invariant InOrder (List.Sublist.refl _) ?_
  intro trace core label next events _ hinOrder _ hstep
  rw [InOrder] at hinOrder ⊢
  cases verdictMoves_of_path (moves_of_step hstep).path with
  | quiet hunpublished hverdicts hpublished =>
      simpa [hunpublished, hverdicts, hpublished] using hinOrder
  | report cmd result hbefore hunpublished hverdicts hpublished =>
      simp only [hbefore, Option.toList_none, List.append_nil] at hinOrder
      simpa [hunpublished, hverdicts, hpublished] using hinOrder.append_right [(cmd, result)]
  | publish cmd result hbefore hunpublished hverdicts hpublished =>
      simpa [hbefore, hunpublished, hverdicts, hpublished] using hinOrder
  | lose nowNs left cmd result hthread hbefore hfailed hunpublished hverdicts hpublished =>
      rw [hunpublished, publishedResults_append, hpublished, verdicts_append, hverdicts]
      simpa using (List.sublist_append_left _ _).trans hinOrder

theorem AllPublished.run {allowed : Core → Thread × World → Prop} {dir : DataDir}
    {trace : List Event} {core : Core}
    (hallowed : ∀ core label, allowed core label → AppendsSucceed core label)
    (hrun : Run system allowed (powerOn dir) trace core) : AllPublished trace core := by
  refine hrun.invariant AllPublished rfl ?_
  intro trace core label next events hrun hall hlabel hstep
  rw [AllPublished] at hall ⊢
  cases verdictMoves_of_path (moves_of_step hstep).path with
  | quiet hunpublished hverdicts hpublished =>
      simpa [hunpublished, hverdicts, hpublished] using hall
  | report cmd result hbefore hunpublished hverdicts hpublished =>
      simpa [hbefore, hunpublished, hverdicts, hpublished] using hall
  | publish cmd result hbefore hunpublished hverdicts hpublished =>
      simpa [hbefore, hunpublished, hverdicts, hpublished] using hall
  | lose nowNs left cmd result hthread hbefore hfailed hunpublished hverdicts hpublished =>
      have hboot := Boot.run hrun
      have hopened := hallowed core label hlabel nowNs left cmd result hthread.1 hbefore
      simp [hopened, hboot.initialized (hboot.broughtUp hthread.2)] at hfailed

/-! ## Verdicts and work done -/

/-- Every verdict given is true of the state, and so is what the handler in hand
relies on. -/
structure Truthful (trace : List Event) (core : Core) : Prop where
  sound : Sound core.control
  progress : Progress core.shared core.control
  reason : core.shared.estop.latched = true →
    core.shared.estop.reason = some (ascii "EmergencyStop command") ∨
      ∃ nowNs left cmd, core.control = .handling nowNs left cmd .triggerStore
  early : core.control = .start →
    core.shared.estop.latched = false ∧ ∀ cmd result, .processed cmd result ∉ trace
  done : ∀ cmd result, .processed cmd result ∈ trace → Done core.shared cmd result

section Truthful

variable {trace events : List Event} {world : World} {core next : Core}

/-- A step that neither sets the latch nor gives a verdict. -/
theorem Truthful.quiet (htruthful : Truthful trace core)
    (honward : Onward core.shared next.shared) (hcontrol : next.control = core.control)
    (hestop : next.shared.estop = core.shared.estop)
    (hquiet : ∀ cmd result, .processed cmd result ∉ events) : Truthful (trace ++ events) next where
  sound := hcontrol ▸ htruthful.sound
  progress := hcontrol ▸ htruthful.progress.onward honward
  reason := by rw [hestop, hcontrol]; exact htruthful.reason
  early := fun hstart => by
    obtain ⟨hlatched, hnone⟩ := htruthful.early (hcontrol ▸ hstart)
    exact ⟨hestop ▸ hlatched, fun cmd result hmem =>
      (List.mem_append.1 hmem).elim (hnone cmd result) (hquiet cmd result)⟩
  done := fun cmd result hmem =>
    (htruthful.done cmd result ((List.mem_append.1 hmem).resolve_right
      (hquiet cmd result))).onward honward

/-- A step of the control thread that gives no verdict. -/
theorem Truthful.advance {shared : Shared} {pc : ControlPc} (htruthful : Truthful trace core)
    (honward : Onward core.shared shared) (hsound : Sound pc) (hprogress : Progress shared pc)
    (hreason : shared.estop.latched = true →
      shared.estop.reason = some (ascii "EmergencyStop command") ∨
        ∃ nowNs left cmd, pc = .handling nowNs left cmd .triggerStore)
    (hpc : pc ≠ .start) (hquiet : ∀ cmd result, .processed cmd result ∉ events) :
    Truthful (trace ++ events) { core with shared := shared, control := pc } where
  sound := hsound
  progress := hprogress
  reason := hreason
  early := fun hstart => absurd hstart hpc
  done := fun cmd result hmem =>
    (htruthful.done cmd result ((List.mem_append.1 hmem).resolve_right
      (hquiet cmd result))).onward honward

/-- The reason is stored unless `trigger` is about to store it. -/
theorem Truthful.stored (htruthful : Truthful trace core)
    (hpc : ∀ nowNs left cmd, core.control ≠ .handling nowNs left cmd .triggerStore)
    (hlatched : core.shared.estop.latched = true) :
    core.shared.estop.reason = some (ascii "EmergencyStop command") :=
  (htruthful.reason hlatched).resolve_right fun ⟨nowNs, left, cmd, hstore⟩ =>
    hpc nowNs left cmd hstore

theorem Truthful.handler {nowNs : UInt64} {left : ℕ} {cmd : CommandEnvelope}
    {before after : HandlerPc} {shared : Shared} (htruthful : Truthful trace core)
    (honward : Onward core.shared shared) (hpc : core.control = .handling nowNs left cmd before)
    (hsound : Sound (.handling nowNs left cmd after))
    (hmoves : HandlerMoves core.shared before shared after events) :
    Truthful (trace ++ events)
      { core with shared := shared, control := .handling nowNs left cmd after } := by
  have hbefore := htruthful.sound
  have hprogress := htruthful.progress
  rw [hpc] at hbefore hprogress
  obtain ⟨hfresh, name, handler, hname, hrow, hat⟩ := hbefore
  have hreason : before ≠ .triggerStore → core.shared.estop.latched = true →
      core.shared.estop.reason = some (ascii "EmergencyStop command") := fun hne =>
    htruthful.stored fun nowNs left cmd hstore => hne (by simp_all)
  cases hmoves with
  | latch hbefore hlatched =>
      exact htruthful.advance honward hsound rfl (fun _ => .inr ⟨_, _, _, rfl⟩) (by simp) (by simp)
  | latchedBefore hbefore hlatched =>
      exact htruthful.advance honward hsound
        (fun _ => ⟨hlatched, hreason (by simp [hbefore]) hlatched⟩)
        (fun h => .inl (hreason (by simp [hbefore]) h)) (by simp) (by simp)
  | storeReason hbefore =>
      subst hbefore
      exact htruthful.advance honward hsound (fun _ => ⟨hprogress, rfl⟩) (fun _ => .inl rfl)
        (by simp) (by simp)
  | requestStop result hbefore =>
      exact htruthful.advance honward hsound
        (done_of_handler hname hrow hat hprogress (.requestStop result hbefore))
        (fun h => .inl (hreason (by simp [hbefore]) h)) (by simp) (by simp)
  | refuse hbefore hlatched =>
      exact htruthful.advance honward hsound
        (done_of_handler hname hrow hat hprogress (.refuse hbefore hlatched))
        (fun h => .inl (hreason (by simp [hbefore]) h)) (by simp) (by simp)
  | permit hbefore hlatched =>
      exact htruthful.advance honward hsound trivial
        (fun h => .inl (hreason (by simp [hbefore]) h)) (by simp) (by simp)
  | disableDrives hbefore =>
      exact htruthful.advance honward hsound
        (done_of_handler hname hrow hat hprogress (.disableDrives hbefore))
        (fun h => .inl (hreason (by simp [hbefore]) h)) (by simp) (by simp)

theorem Truthful.control {shared : Shared} {pc : ControlPc} (htruthful : Truthful trace core)
    (hboot : Boot core) (honward : Onward core.shared shared)
    (hmoves : ControlMoves world core.shared core.control shared pc events) :
    Truthful (trace ++ events) { core with shared := shared, control := pc } := by
  have hsound : Sound pc := htruthful.sound.moves hboot hmoves
  have hbefore := htruthful.sound
  have hprogress := htruthful.progress
  cases hmoves with
  | handle nowNs left cmd before after shared events hpc hhandler =>
      exact htruthful.handler honward hpc hsound hhandler
  | refuse nowNs left cmd handler result hpc hdispatch =>
      exact htruthful.advance honward hsound (done_of_refused _ hdispatch)
        (fun h => .inl (htruthful.stored (by simp [hpc]) h)) (by simp) (by simp)
  | call nowNs left cmd handler hpc hfresh =>
      refine htruthful.advance honward hsound ?_
        (fun h => .inl (htruthful.stored (by simp [hpc]) h)) (by simp) (by simp)
      rw [hpc] at hbefore
      obtain ⟨name, hrow, hname⟩ :=
        mem_defaultHandlers_of_table (Option.join_eq_some_iff.1 hbefore.symm)
      cases hcall : handler.call cmd with
      | returned result => exact done_of_call _ hname hrow hcall
      | requestStop result =>
          intro hcmd
          obtain rfl := handler_of_wire hname hrow (.emergencyStop, .emergencyStop) (by decide) hcmd
          cases hcall
      | triggerStore => cases handler <;> simp [Handler.call] at hcall
      | _ => trivial
  | handled nowNs left cmd result hpc =>
      rw [hpc] at hbefore hprogress
      obtain ⟨-, name, handler, -, -, hat⟩ := hbefore
      cases hat with
      | returned handler result hreturns =>
          refine htruthful.advance honward hsound ?_
            (fun h => .inl (htruthful.stored (by simp [hpc]) h)) (by simp) (by simp)
          rw [hreturns.settle_eq]
          exact hprogress
  | report nowNs left cmd result hpc hrejected | reportStored nowNs left cmd result hpc hrejected =>
      rw [hpc] at hprogress
      refine ⟨trivial, trivial, fun h => .inl (htruthful.stored (by simp [hpc]) h), by simp, ?_⟩
      intro other verdict hmem
      rcases List.mem_append.1 hmem with hmem | hmem
      · exact (htruthful.done other verdict hmem).onward honward
      · obtain ⟨rfl, rfl⟩ : other = cmd ∧ verdict = result := by simpa using hmem
        exact Done.onward hprogress honward
  | _ =>
      exact htruthful.advance honward hsound trivial
        (fun h => .inl (htruthful.stored (by simp_all) h)) (by simp) (by simp)

theorem Truthful.moves {thread : Thread} (htruthful : Truthful trace core) (hboot : Boot core)
    (hmoves : Moves world core thread next events) : Truthful (trace ++ events) next := by
  by_cases henable : thread = .main ∧ core.main = .enable
  · obtain ⟨rfl, henable⟩ := henable
    have hstart : core.control = .start :=
      hboot.idle .control (by simp [henable, MainPc.started])
    obtain ⟨hlatched, hnone⟩ := htruthful.early hstart
    cases hmoves with
    | main shared pc events hmoves =>
        cases hmoves with
        | enable hpc =>
            rw [List.append_nil]
            refine ⟨htruthful.sound, ?_, htruthful.reason, htruthful.early,
              fun cmd result hmem => absurd hmem (hnone cmd result)⟩
            rw [hstart]
            trivial
        | _ => simp_all
  · have honward := onward_of_moves hmoves (not_and.1 henable)
    cases hmoves with
    | control shared pc events hthread hmoves => exact htruthful.control hboot honward hmoves
    | append => exact htruthful.quiet honward rfl rfl (by simp)
    | main shared pc events hmoves | estop shared pc events hthread hmoves
    | sensor shared pc events hthread hmoves | io shared pc events hthread hmoves
    | persist shared pc events hthread hmoves =>
        cases hmoves <;> exact htruthful.quiet honward rfl rfl (by simp)

end Truthful

theorem Truthful.run {allowed : Core → Thread × World → Prop} {dir : DataDir}
    {trace : List Event} {core : Core}
    (hrun : Run system allowed (powerOn dir) trace core) : Truthful trace core := by
  refine hrun.invariant Truthful
    ⟨trivial, trivial, fun hlatched => (by cases hlatched), fun _ => ⟨rfl, by simp⟩, by simp⟩ ?_
  intro trace core label next events hrun htruthful _ hstep
  exact htruthful.moves (Boot.run hrun) (moves_of_step hstep)

theorem Decided.run {allowed : Core → Thread × World → Prop} {dir : DataDir}
    {trace : List Event} {core : Core}
    (hrun : Run system allowed (powerOn dir) trace core) : Decided trace core := by
  refine hrun.invariant Decided ⟨[], rfl, .nil⟩ ?_
  intro trace core label next events hrun hdecided _ hstep
  exact hdecided.moves (Truthful.run hrun).sound (moves_of_step hstep).path

/-- Every command the control thread takes off the queue is given one verdict, in
order, by its own handler or for lack of one; published are verdicts only, in
their order; and what a verdict says was done is done and stays so. -/
theorem commands_answered (dir : DataDir) (trace : List Event) (core : Core)
    (hrun : Run system always (powerOn dir) trace core) :
    (∃ decided inHand, takenCommands trace = decided ++ inHand ∧ inHand.length ≤ 1 ∧
      List.Forall₂ Decides decided (verdicts trace)) ∧
    (publishedResults trace).Sublist (verdicts trace) ∧
    ∀ cmd result, .processed cmd result ∈ trace → Done core.shared cmd result := by
  obtain ⟨decided, hcommands, hmatch⟩ := Decided.run hrun
  refine ⟨⟨decided, _, hcommands, ?_, hmatch⟩, ?_, (Truthful.run hrun).done⟩
  · cases undecided core.control <;> simp
  · exact (List.sublist_append_left _ _).trans (InOrder.run hrun)

private def bothStops : Bytes := ascii "C|1|700|0|0|0|0|0|AA==\nC|2|102|0|0|0|0|0|AA==\n"

/-- An emergency stop that is carried out and a `Stop` refused after it. -/
theorem commands_answered_stops :
    ∃ (trace : List Event) (core : Core),
      Run system always (powerOn (freshDir bothStops)) trace core ∧
      verdicts trace = [(plainCommand .emergencyStop 1, estopLatched),
        (plainCommand .stop 2, lockedOut)] ∧
      Done core.shared (plainCommand .emergencyStop 1) estopLatched ∧
      Done core.shared (plainCommand .stop 2) lockedOut := by
  obtain ⟨⟨core, trace⟩, hexecute, hverdicts⟩ := Option.map_eq_some_iff.1
    (show (execute system always (powerOn (freshDir bothStops))
        (bootSchedule ++ times 7 .io ++ times 18 .control)).map (fun result =>
          verdicts result.2) =
      some [(plainCommand .emergencyStop 1, estopLatched), (plainCommand .stop 2, lockedOut)] by
      decide +kernel)
  have hrun := run_of_execute hexecute
  have hdone := (commands_answered _ trace core hrun).2.2
  have hprocessed : ∀ cmd result, (cmd, result) ∈ verdicts trace →
      .processed cmd result ∈ trace := by
    intro cmd result hmem
    obtain ⟨event, hevent, hverdict⟩ := List.mem_filterMap.1 hmem
    cases event <;> simp_all [verdict]
  exact ⟨trace, core, hrun, hverdicts, hdone _ _ (hprocessed _ _ (by simp [hverdicts])),
    hdone _ _ (hprocessed _ _ (by simp [hverdicts]))⟩

end ArcravenUgv.Verdicts
