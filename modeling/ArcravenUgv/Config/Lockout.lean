import ArcravenUgv.Config.Boot

/-!
# Commands under a latched E-STOP

The control thread tests the latch once before a batch of up to eight commands,
and of all handlers only that of `Stop` tests it again.  What is refused after
the latch therefore depends on what is taken off the queue while it is set.
-/

namespace ArcravenUgv.Lockout

open ArcravenUgv.Enums
open ArcravenUgv.Command
open ArcravenUgv.Command.CommandRouter
open ArcravenUgv.Decimal
open ArcravenUgv.Handlers
open ArcravenUgv.Runs
open ArcravenUgv.Runtime

/-- The commands that may be executed under a latched E-STOP. -/
def exempt : List UInt16 :=
  [UgvCommand.emergencyStop.wire, UgvCommand.shutdown.wire, UgvCommand.reboot.wire]

/-- A command that is executed although it must not be. -/
def Unlawful : Event → Prop
  | .processed cmd result => cmd.command ∉ exempt ∧ result.status ≠ .rejected
  | _ => False

/-- Every command dequeued after the latch and handed to the callback was
rejected, the exempt ones apart. -/
def LockoutHolds (trace : List Event) : Prop :=
  ∀ before between later cmd nowNs result,
    trace = before ++ .latched :: between ++ .dequeued cmd nowNs :: later →
      .processed cmd result ∈ later → cmd.command ∉ exempt → result.status = .rejected

/-- The command the control thread takes off the queue with its next step, and
the time it will hold against it. -/
def takesNext (core : Core) : Option (CommandEnvelope × UInt64) :=
  match core.control, core.shared.router.q with
  | .processOne nowNs (_ + 1), cmd :: _ => some (cmd, nowNs)
  | _, _ => none

/-- Under a latched E-STOP the control thread takes a command off the queue only
if it is exempt, expired, without a handler, or `Stop`. -/
def RefusesFront (core : Core) (label : Thread × World) : Prop :=
  label.1 = .control → core.shared.estop.latched = true →
    ∀ front ∈ takesNext core,
      isExpired front.1 front.2 = true ∨
        core.shared.router.hasHandler front.1.command = false ∨
        front.1.command ∈ UgvCommand.stop.wire :: exempt

instance (core : Core) (label : Thread × World) : Decidable (RefusesFront core label) :=
  inferInstanceAs (Decidable (_ → _ → ∀ front ∈ takesNext core, _))

/-! ## The command in hand -/

/-- A handler is run for the command it was registered for, as far as the latch
is concerned. -/
def Genuine : ControlPc → Prop
  | .admitting _ _ cmd handler => ∀ called, handler = some called →
      ∃ name : UgvCommand, (name, called) ∈ defaultHandlers ∧ name.wire = cmd.command
  | .handling _ _ cmd .triggerExchange => cmd.command = UgvCommand.emergencyStop.wire
  | _ => True

/-- What the control thread may have in hand while the latch is set. -/
def Lawful : ControlPc → Prop
  | .admitting nowNs _ cmd handler =>
      cmd.command ∈ exempt ∨ isExpired cmd nowNs = true ∨ handler = none ∨
        handler = some .stop
  | .handling _ _ cmd pc =>
      cmd.command ∈ exempt ∨ pc = .testLatch ∨ pc = .returned lockedOut
  | .callback _ _ cmd result => cmd.command ∈ exempt ∨ result.status = .rejected
  | _ => True

theorem row_of_emergencyStop : ∀ row ∈ defaultHandlers,
    row.2 = .emergencyStop → row.1 = .emergencyStop := by
  decide

theorem row_of_stop : ∀ row ∈ defaultHandlers,
    row.1.wire = UgvCommand.stop.wire → row.2 = .stop := by
  decide

theorem Genuine.moves {world : World} {core next : Core} {thread : Thread}
    {events : List Event} (hboot : Boot core) (hgenuine : Genuine core.control)
    (hmoves : Moves world core thread next events) : Genuine next.control := by
  cases hmoves with
  | control shared pc events hthread hmoves =>
      cases hmoves with
      | dequeue nowNs left cmd rest hpc hq =>
          intro called hcalled
          have hlookup := Option.join_eq_some_iff.1 hcalled
          rw [hboot.handlers] at hlookup
          exact mem_defaultHandlers_of_table hlookup
      | call nowNs left cmd handler hpc hfresh =>
          rw [hpc] at hgenuine
          obtain ⟨name, hrow, hwire⟩ := hgenuine handler rfl
          cases handler with
          | emergencyStop =>
              have hname : name = .emergencyStop := row_of_emergencyStop _ hrow rfl
              rw [hname] at hwire
              exact hwire.symm
          | _ => trivial
      | handle nowNs left cmd before after shared events hpc hhandler =>
          cases hhandler <;> trivial
      | _ => trivial
  | _ => exact hgenuine

structure Locked (trace : List Event) (core : Core) : Prop where
  genuine : Genuine core.control
  unmarked : core.shared.estop.latched = false → .latched ∉ trace
  lawful : core.shared.estop.latched = true → Lawful core.control
  noneAfter : NoneAfter (· = .latched) Unlawful trace

/-- A step that does not set the latch. -/
theorem Locked.step {trace events : List Event} {core next : Core}
    (hlocked : Locked trace core) (hgenuine : Genuine next.control)
    (hlatched : next.shared.estop.latched = core.shared.estop.latched)
    (hunmarked : .latched ∉ events)
    (hquiet : core.shared.estop.latched = true → ∀ event ∈ events, ¬ Unlawful event)
    (hlawful : core.shared.estop.latched = true → Lawful next.control) :
    Locked (trace ++ events) next where
  genuine := hgenuine
  unmarked := fun h => by
    rw [List.mem_append, not_or]
    exact ⟨hlocked.unmarked (hlatched ▸ h), hunmarked⟩
  lawful := fun h => hlawful (hlatched ▸ h)
  noneAfter := by
    cases hstate : core.shared.estop.latched with
    | true => exact hlocked.noneAfter.append_quiet (hquiet hstate)
    | false =>
        refine NoneAfter.append_unmarked (fun event hmem => ?_) ?_
        · rintro rfl
          exact hlocked.unmarked hstate hmem
        · refine List.pairwise_of_forall_mem_list fun earlier hmem _ _ hmark => ?_
          exact absurd (hmark ▸ hmem) hunmarked

/-- A step of another thread. -/
theorem Locked.quiet {trace events : List Event} {core next : Core}
    (hlocked : Locked trace core) (hcontrol : next.control = core.control)
    (hestop : next.shared.estop = core.shared.estop)
    (hunmarked : .latched ∉ events) (hquiet : ∀ event ∈ events, ¬ Unlawful event) :
    Locked (trace ++ events) next :=
  hlocked.step (hcontrol ▸ hlocked.genuine) (by rw [hestop]) hunmarked (fun _ => hquiet)
    (fun h => hcontrol ▸ hlocked.lawful h)

/-- A handler that runs for a command in hand leaves it lawful. -/
theorem Locked.handler {trace events : List Event} {core : Core} {shared : Shared}
    {nowNs : UInt64} {left : ℕ} {cmd : CommandEnvelope} {before after : HandlerPc}
    (hlocked : Locked trace core) (hpc : core.control = .handling nowNs left cmd before)
    (hgenuine : Genuine (.handling nowNs left cmd after))
    (hmoves : HandlerMoves core.shared before shared after events) :
    Locked (trace ++ events)
      { core with shared := shared, control := .handling nowNs left cmd after } := by
  have hlawful := hlocked.lawful
  have hexchange := hlocked.genuine
  rw [hpc] at hlawful hexchange
  cases hmoves with
  | latch hbefore hlatched =>
      subst hbefore
      have hexempt : cmd.command ∈ exempt := by
        rw [show cmd.command = UgvCommand.emergencyStop.wire from hexchange]
        decide
      refine ⟨trivial, fun h => by simp at h, fun _ => Or.inl hexempt, ?_⟩
      refine NoneAfter.append_unmarked (fun event hmem => ?_) (List.pairwise_singleton _ _)
      rintro rfl
      exact hlocked.unmarked hlatched hmem
  | latchedBefore hbefore hlatched | storeReason hbefore =>
      subst hbefore
      exact hlocked.step hgenuine rfl (by simp) (by simp) fun h =>
        (hlawful h).imp_right (by simp)
  | requestStop result hbefore =>
      subst hbefore
      exact hlocked.step hgenuine rfl (by simp) (by simp [Unlawful]) fun h =>
        (hlawful h).imp_right (by simp)
  | refuse hbefore hlatched =>
      exact hlocked.step hgenuine rfl (by simp) (by simp) fun _ => Or.inr (Or.inr rfl)
  | permit hbefore hlatched =>
      exact hlocked.step hgenuine rfl (by simp) (by simp) fun h => by simp [hlatched] at h
  | disableDrives hbefore =>
      subst hbefore
      exact hlocked.step hgenuine rfl (by simp) (by simp) fun h =>
        (hlawful h).imp_right (by simp)

theorem Locked.control {trace events : List Event} {world : World} {core : Core}
    {shared : Shared} {pc : ControlPc} (hlocked : Locked trace core) (hboot : Boot core)
    (hallowed : RefusesFront core (.control, world))
    (hgenuine : Genuine pc)
    (hmoves : ControlMoves world core.shared core.control shared pc events) :
    Locked (trace ++ events) { core with shared := shared, control := pc } := by
  have hlawful := hlocked.lawful
  cases hmoves with
  | dequeue nowNs left cmd rest hpc hq =>
      refine hlocked.step hgenuine rfl (by simp) (by simp [Unlawful]) fun h => ?_
      have hfront : (cmd, nowNs) ∈ takesNext core := by simp [takesNext, hpc, hq]
      rcases hallowed rfl h _ hfront with hexpired | hnone | hmem
      · exact Or.inr (Or.inl hexpired)
      · refine Or.inr (Or.inr (Or.inl ?_))
        rw [hasHandler, Option.isSome_eq_false_iff, Option.isNone_iff_eq_none] at hnone
        rw [hnone]
        rfl
      · rcases List.mem_cons.1 hmem with hstop | hexempt
        · refine Or.inr (Or.inr ?_)
          cases hlookup : (core.shared.router.handlers cmd.command).join with
          | none => exact Or.inl rfl
          | some called =>
              rw [hboot.handlers] at hlookup
              obtain ⟨name, hrow, hwire⟩ :=
                mem_defaultHandlers_of_table (Option.join_eq_some_iff.1 hlookup)
              have hcalled := row_of_stop _ hrow (hwire.trans hstop)
              exact Or.inr (congrArg some hcalled)
        · exact Or.inl hexempt
  | refuse nowNs left cmd handler result hpc hdispatch =>
      refine hlocked.step hgenuine rfl (by simp) (by simp) fun _ => Or.inr ?_
      rcases dispatch_error_iff.1 hdispatch with ⟨-, rfl⟩ | ⟨-, -, rfl⟩ <;> rfl
  | call nowNs left cmd handler hpc hfresh =>
      rw [hpc] at hlawful
      refine hlocked.step hgenuine rfl (by simp) (by simp [Unlawful]) fun h => ?_
      rcases hlawful h with hexempt | hexpired | hnone | hstop
      · exact Or.inl hexempt
      · simp [hfresh] at hexpired
      · simp at hnone
      · obtain rfl := Option.some.inj hstop
        exact Or.inr (Or.inl rfl)
  | handle nowNs left cmd before after shared events hpc hhandler =>
      exact hlocked.handler hpc hgenuine hhandler
  | handled nowNs left cmd result hpc =>
      rw [hpc] at hlawful
      refine hlocked.step hgenuine rfl (by simp) (by simp) fun h => ?_
      rcases hlawful h with hexempt | hreturned | hreturned
      · exact Or.inl hexempt
      · cases hreturned
      · obtain rfl := HandlerPc.returned.inj hreturned
        exact Or.inr rfl
  | report nowNs left cmd result hpc hrejected =>
      exact hlocked.step hgenuine rfl (by simp) (by simp [Unlawful, hrejected])
        fun _ => trivial
  | reportStored nowNs left cmd result hpc hrejected =>
      rw [hpc] at hlawful
      refine hlocked.step hgenuine rfl (by simp) (fun h => ?_) fun _ => trivial
      have hexempt := (hlawful h).resolve_right hrejected
      simp [Unlawful, hexempt]
  | publish nowNs left cmd result hpc =>
      exact hlocked.step hgenuine rfl (by simp) (by simp [Unlawful]) fun _ => trivial
  | start hpc =>
      exact hlocked.step hgenuine rfl (by simp) (by simp [Unlawful]) fun _ => trivial
  | _ => exact hlocked.step hgenuine rfl (by simp) (by simp) fun _ => trivial

theorem Locked.moves {trace events : List Event} {label : Thread × World} {core next : Core}
    (hlocked : Locked trace core) (hboot : Boot core) (hallowed : RefusesFront core label)
    (hmoves : Moves label.2 core label.1 next events) :
    Locked (trace ++ events) next := by
  have hgenuine := hlocked.genuine.moves hboot hmoves
  obtain ⟨thread, world⟩ := label
  cases hmoves with
  | control shared pc events hthread hmoves =>
      exact hlocked.control hboot hallowed hgenuine hmoves
  | main shared pc events hmoves | estop shared pc events hthread hmoves
  | sensor shared pc events hthread hmoves | io shared pc events hthread hmoves
  | persist shared pc events hthread hmoves =>
      cases hmoves <;> exact hlocked.quiet rfl rfl (by simp) (by simp [Unlawful])
  | append => exact hlocked.quiet rfl rfl (by simp) (by simp)

theorem Locked.run {dir : DataDir} {trace : List Event} {core : Core}
    (hrun : Run system RefusesFront (powerOn dir) trace core) : Locked trace core := by
  refine hrun.invariant Locked ?_ ?_
  · exact ⟨trivial, fun _ => by simp, fun _ => trivial, noneAfter_nil⟩
  · intro trace core label next events hrun hlocked hallowed hstep
    exact hlocked.moves (Boot.run hrun) hallowed (moves_of_step hstep)

/-- If the control thread never takes a command off the queue under a latched
E-STOP that its handler would execute, none is executed after the latch. -/
theorem lockout_of_refusesFront (dir : DataDir) (trace : List Event) (core : Core)
    (hrun : Run system RefusesFront (powerOn dir) trace core) : LockoutHolds trace := by
  intro before between later cmd nowNs result hsplit hmem hexempt
  by_contra hstatus
  have hlater : .processed cmd result ∈ between ++ .dequeued cmd nowNs :: later :=
    List.mem_append_right _ (List.mem_cons_of_mem _ hmem)
  exact (Locked.run hrun).noneAfter.not_bad (hsplit.trans (List.append_assoc _ _ _)) rfl hlater
    ⟨hexempt, hstatus⟩

private def stopNow : CommandEnvelope := plainCommand .emergencyStop 1

private def stopSoftly : CommandEnvelope := plainCommand .stop 2

private def goOn : CommandEnvelope := plainCommand .goTo 2

/-- The control thread takes and handles an emergency stop. -/
private def latching : List Event :=
  [.stored coldState, .dequeued stopNow 0, .handlerCalled stopNow, .latched,
    .stopRequested .control] ++ reported stopNow estopLatched

private def queueing (line : String) (env : CommandEnvelope) : List Event :=
  [submitted 0 "C|1|700|0|0|0|0|0|AA==" stopNow, submitted 23 line env]

private def twoStops : DataDir :=
  freshDir (ascii "C|1|700|0|0|0|0|0|AA==\nC|2|102|0|0|0|0|0|AA==\n")

private def refusing : List Event :=
  [.dequeued stopSoftly 0, .handlerCalled stopSoftly, .processed stopSoftly lockedOut]

private def executing : List Event :=
  [.dequeued goOn 0, .handlerCalled goOn,
    .processed goOn (accepted (ascii "GoTo accepted (stub)")), .stored coldState]

/-- An emergency stop and a `Stop` in one batch: the second is rejected. -/
theorem lockout_of_stop_after_emergencyStop :
    ∃ core, Run system RefusesFront (powerOn twoStops)
        (queueing "C|2|102|0|0|0|0|0|AA==" stopSoftly ++ latching ++ refusing) core ∧
      LockoutHolds (queueing "C|2|102|0|0|0|0|0|AA==" stopSoftly ++ latching ++ refusing) := by
  obtain ⟨core, hrun⟩ := exists_run_of_trace system RefusesFront (powerOn twoStops)
    (bootSchedule ++ times 7 .io ++ times 17 .control)
    (show _ = some (queueing "C|2|102|0|0|0|0|0|AA==" stopSoftly ++ latching ++ refusing) by
      decide +kernel)
  exact ⟨core, hrun, lockout_of_refusesFront _ _ core hrun⟩

/-- An emergency stop and a `GoTo` in one batch: the second is executed. -/
theorem lockout_fails_within_batch :
    ∃ (dir : DataDir) (trace : List Event) (core : Core),
      Run system always (powerOn dir) trace core ∧ ¬ LockoutHolds trace := by
  obtain ⟨core, hrun⟩ := exists_run_of_trace system always
    (powerOn (freshDir (ascii "C|1|700|0|0|0|0|0|AA==\nC|2|101|0|0|0|0|0|AA==\n")))
    (bootSchedule ++ times 7 .io ++ times 16 .control)
    (show _ = some (queueing "C|2|101|0|0|0|0|0|AA==" goOn ++ latching ++ executing) by
      decide +kernel)
  refine ⟨_, _, core, hrun, fun hlockout => ?_⟩
  have hrejected := hlockout (queueing "C|2|101|0|0|0|0|0|AA==" goOn ++ latching.take 3)
    (latching.drop 4) (executing.drop 1) goOn 0 (accepted (ascii "GoTo accepted (stub)")) rfl
    (by simp [executing]) (by decide)
  cases hrejected

end ArcravenUgv.Lockout
