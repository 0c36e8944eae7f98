import ArcravenUgv.Config.Terminates

/-!
# Every accepted command gets its verdict

The control thread comes to every command that is queued, unless a stop is
requested before.  A command that stops the core and never expires therefore ends
`run`, however many commands are queued before it and while others go on
arriving.
-/

namespace ArcravenUgv.Obeyed

open ArcravenUgv.Enums
open ArcravenUgv.Command
open ArcravenUgv.Command.CommandRouter
open ArcravenUgv.Decimal
open ArcravenUgv.Handlers
open ArcravenUgv.Runs
open ArcravenUgv.Fair
open ArcravenUgv.Mutex
open ArcravenUgv.Logger
open ArcravenUgv.Runtime
open ArcravenUgv.Locks
open ArcravenUgv.SelfLock
open ArcravenUgv.Intake
open ArcravenUgv.Acknowledge
open ArcravenUgv.Verdicts
open ArcravenUgv.Terminates

/-- The commands whose handlers request the stop. -/
def stopCommands : List UInt16 :=
  [UgvCommand.emergencyStop.wire, UgvCommand.shutdown.wire, UgvCommand.reboot.wire]

/-! ## The latch stops the core -/

/-- The handler of an emergency stop is on its way to the stop. -/
def AboutToStop : ControlPc → Prop
  | .handling _ _ _ .triggerStore | .handling _ _ _ (.requestStop _) => True
  | _ => False

theorem stop_of_latched {allowed : Core → Thread × World → Prop} {dir : DataDir}
    {trace : List Event} {core : Core} (hrun : Run system allowed (powerOn dir) trace core)
    (hlatched : core.shared.estop.latched = true) :
    core.shared.stop.stop = true ∨ AboutToStop core.control := by
  refine hrun.invariant (fun _ core => core.shared.estop.latched = true →
    core.shared.stop.stop = true ∨ AboutToStop core.control) (fun h => by cases h) ?_ hlatched
  intro trace core label next events _ hinv _ hstep hlatched
  have hmoves := moves_of_step hstep
  have hmono := EStopRun.stop_mono hmoves
  obtain ⟨thread, world⟩ := label
  change Moves world core thread next events at hmoves
  cases hmoves with
  | append => exact hinv hlatched
  | main shared pc events hmoves | estop shared pc events hthread hmoves
  | sensor shared pc events hthread hmoves | io shared pc events hthread hmoves
  | persist shared pc events hthread hmoves =>
      refine (hinv ?_).imp_left hmono
      cases hmoves <;> exact hlatched
  | control shared pc events hthread hmoves =>
      cases hmoves with
      | handle nowNs left cmd before after shared events hpc hhandler =>
          cases hhandler with
          | latch hbefore hclear | latchedBefore hbefore hset | storeReason hbefore =>
              exact .inr trivial
          | requestStop result hbefore => exact .inl rfl
          | _ =>
              refine (hinv hlatched).imp_right fun h => ?_
              simp_all [AboutToStop]
      | _ =>
          refine (hinv hlatched).imp_right fun h => ?_
          simp_all [AboutToStop]

/-! ## The way to a verdict -/

/-- How many steps the control thread takes before it takes a command off the
queue, or has a verdict on the one in hand, unless the core is stopped. -/
def untilTake : ControlPc → ℕ
  | .exiting | .exited => 0
  | .processOne _ left => if left = 0 then 6 else 1
  | .sampleClock => 2
  | .testLatch => 3
  | .testStop => 4
  | .start | .sleep => 5
  | .publishing _ _ _ _ => 7
  | .callback _ _ _ _ => 8
  | .handling _ _ _ pc => 9 + handlerLeft pc
  | .admitting _ _ _ _ => 13

/-- The control thread is in its loop, and no stop is requested. -/
structure Working (core : Core) : Prop where
  stop : core.shared.stop.stop = false
  thread : .control ∈ core.shared.threads
  exiting : core.control ≠ .exiting ∧ core.control ≠ .exited

section Working

variable {world : World} {core next : Core} {events : List Event}

/-- Other threads leave the control thread alone and take nothing off the queue. -/
theorem Working.other {thread : Thread} (hworking : Working core) (hboot : Boot core)
    (hmoves : Moves world core thread next events) (hother : thread ≠ .control)
    (hstop : next.shared.stop.stop = false) :
    Working next ∧ next.control = core.control ∧
      (core.shared.router.q ≠ [] → next.shared.router.q ≠ []) := by
  have hcontrol := hmoves.control_of_ne hother
  have hcan : CanMove core .control := ⟨hworking.thread, hworking.exiting.2⟩
  refine ⟨⟨hstop, (hcan.moves hboot hother hmoves).1, hcontrol ▸ hworking.exiting⟩, hcontrol,
    fun hqueue => ?_⟩
  cases hmoves.path with
  | control shared pc events hthread hmoves => exact absurd rfl hother
  | append => exact hqueue
  | aside thread next events haside => rwa [haside.queue]
  | io shared pc events hthread hmoves =>
      cases hmoves with
      | submit offset line atEnd cmd hpc henvelope =>
          rcases submit_cases core.shared.router cmd with ⟨-, -, hsubmit⟩ | ⟨hsame, -⟩
          · simp [hsubmit]
          · rwa [hsame]
      | _ => exact hqueue

/-- A step within the loop. -/
theorem Working.advance {shared : Shared} {pc : ControlPc} (hworking : Working core)
    (hthreads : shared.threads = core.shared.threads) (hstop : shared.stop.stop = false)
    (hexiting : pc ≠ .exiting ∧ pc ≠ .exited) :
    Working { core with shared := shared, control := pc } :=
  ⟨hstop, hthreads ▸ hworking.thread, hexiting⟩

theorem untilTake_processOne_le (nowNs : UInt64) (left : ℕ) :
    untilTake (.processOne nowNs left) ≤ 6 := by
  simp only [untilTake]
  split_ifs <;> omega

/-- The control thread is about to look at the queue. -/
def Taking (pc : ControlPc) : Prop := ∃ nowNs left, pc = .processOne nowNs left

/-- Unless it finds the queue empty, a step of the control thread takes a command off
it or comes closer. -/
theorem Working.control {shared : Shared} {pc : ControlPc} (hworking : Working core)
    (hlatch : core.shared.estop.latched = true →
      core.shared.stop.stop = true ∨ AboutToStop core.control)
    (hwork : Taking core.control → core.shared.router.q ≠ [])
    (hmoves : ControlMoves world core.shared core.control shared pc events)
    (hstop : shared.stop.stop = false) :
    Working { core with shared := shared, control := pc } ∧
      (Taking core.control ∧ (undecided pc).isSome ∨
        shared.router.q = core.shared.router.q ∧ untilTake pc < untilTake core.control) := by
  have hclear := hworking.stop
  cases hmoves with
  | leave hpc hset =>
      rw [hclear] at hset
      cases hset
  | sawLatch hpc hlatched =>
      have hset := hlatch hlatched
      simp [hclear, hpc, AboutToStop] at hset
  | exit hpc => exact absurd hpc hworking.exiting.1
  | queueEmpty nowNs left hpc hq => exact absurd hq (hwork ⟨_, _, hpc⟩)
  | dequeue nowNs left cmd rest hpc hq =>
      exact ⟨hworking.advance rfl hstop (by simp), .inl ⟨⟨_, _, hpc⟩, rfl⟩⟩
  | call nowNs left cmd handler hpc hfresh =>
      have hcall := handlerLeft_call handler cmd
      refine ⟨hworking.advance rfl hstop (by simp), .inr ⟨rfl, ?_⟩⟩
      simp only [hpc, untilTake]
      omega
  | handle nowNs left cmd before after shared events hpc hhandler =>
      have hlt := handlerLeft_lt hhandler
      refine ⟨hworking.advance ?_ hstop (by simp), .inr ⟨?_, ?_⟩⟩
      · cases hhandler <;> rfl
      · cases hhandler <;> rfl
      · simp only [hpc, untilTake]
        omega
  | publish nowNs left cmd result hpc | publishFailed nowNs left cmd result hpc hfailed =>
      have hle := untilTake_processOne_le nowNs left
      refine ⟨hworking.advance rfl hstop (by simp), .inr ⟨rfl, ?_⟩⟩
      simp only [hpc, untilTake] at hle ⊢
      omega
  | _ =>
      exact ⟨hworking.advance rfl hstop (by simp), .inr ⟨rfl, by simp [untilTake, handlerLeft, *]⟩⟩

/-- Unless it stops the core, a step leaves the command in hand or the next one no
further away, and the control thread's own steps bring it closer. -/
theorem Working.moves {thread : Thread} (hworking : Working core) (hboot : Boot core)
    (hlatch : core.shared.estop.latched = true →
      core.shared.stop.stop = true ∨ AboutToStop core.control)
    (hwork : Taking core.control → core.shared.router.q ≠ [])
    (hmoves : Moves world core thread next events) (hstop : next.shared.stop.stop = false) :
    Working next ∧
      (Taking core.control ∧ (undecided next.control).isSome ∨
        (core.shared.router.q ≠ [] → next.shared.router.q ≠ []) ∧
          untilTake next.control ≤ untilTake core.control ∧
            (thread = .control → untilTake next.control < untilTake core.control)) := by
  by_cases hthread : thread = .control
  · subst hthread
    cases hmoves with
    | control shared pc events hmem hmoves =>
        obtain ⟨hnext, htaken⟩ := hworking.control hlatch hwork hmoves hstop
        exact ⟨hnext, htaken.imp_right fun ⟨hsame, hlt⟩ =>
          ⟨fun hqueue => by rwa [hsame], hlt.le, fun _ => hlt⟩⟩
  · obtain ⟨hnext, hsame, hqueue⟩ := hworking.other hboot hmoves hthread hstop
    exact ⟨hnext, .inr ⟨hqueue, by rw [hsame], fun h => absurd h hthread⟩⟩

end Working

/-- The control thread leaves its loop only for the stop flag. -/
theorem stop_of_exiting {allowed : Core → Thread × World → Prop} {dir : DataDir}
    {trace : List Event} {core : Core} (hrun : Run system allowed (powerOn dir) trace core)
    (hexiting : core.control = .exiting ∨ core.control = .exited) :
    core.shared.stop.stop = true := by
  refine hrun.invariant (fun _ core => core.control = .exiting ∨ core.control = .exited →
    core.shared.stop.stop = true) (fun h => by rcases h with h | h <;> cases h) ?_ hexiting
  intro trace core label next events _ hinv _ hstep hexiting
  have hmoves := moves_of_step hstep
  have hmono := EStopRun.stop_mono hmoves
  by_cases hcontrol : label.1 = .control
  · obtain ⟨thread, world⟩ := label
    obtain rfl : thread = .control := hcontrol
    cases hmoves with
    | control shared pc events hthread hmoves =>
        cases hmoves with
        | leave hpc hstop => exact hstop
        | exit hpc => exact hmono (hinv (.inl hpc))
        | _ => simp at hexiting
  · rw [hmoves.control_of_ne hcontrol] at hexiting
    exact hmono (hinv hexiting)

theorem mem_running {pc : MainPc} {thread : Thread} (hstarted : thread ∈ pc.started)
    (hjoined : thread ∉ pc.joined) : thread ∈ pc.running := by
  cases pc with
  | saveFinal code | finish code | returned code => exact absurd hstarted hjoined
  | _ => exact hstarted

/-- The control thread is started before the IO thread. -/
theorem control_mem_started {pc : MainPc} (hio : .io ∈ pc.started) : .control ∈ pc.started := by
  cases pc with
  | spawning count =>
      cases count with
      | zero => simp [MainPc.started] at hio
      | succ count => simp [MainPc.started, runtimeThreads]
  | returned code => simp_all [MainPc.started, allThreads, runtimeThreads]
  | _ => simp_all [MainPc.started, allThreads, runtimeThreads]

/-- Commands are queued by the IO thread only. -/
theorem io_of_queue {allowed : Core → Thread × World → Prop} {dir : DataDir}
    {trace : List Event} {core : Core} (hrun : Run system allowed (powerOn dir) trace core)
    (hqueue : core.shared.router.q ≠ []) : core.io ≠ .start := by
  refine hrun.invariant (fun _ core => core.shared.router.q ≠ [] → core.io ≠ .start)
    (fun h => absurd rfl h) ?_ hqueue
  intro trace core label next events _ hinv _ hstep hqueue
  have hmoves := (moves_of_step hstep).path
  obtain ⟨thread, world⟩ := label
  change PathMoves world core thread next events at hmoves
  cases hmoves with
  | control shared pc events hthread hmoves =>
      cases hmoves with
      | dequeue nowNs left cmd rest hpc hq => exact hinv (by simp [hq])
      | handle nowNs left cmd before after shared events hpc hhandler =>
          cases hhandler <;> exact hinv hqueue
      | _ => exact hinv hqueue
  | io shared pc events hthread hmoves =>
      cases hmoves with
      | advance next hpc hstart hexited hbody hnext => exact hstart
      | _ => simp
  | append => exact hinv hqueue
  | aside thread next events haside =>
      rw [haside.queue] at hqueue
      exact haside.io ▸ hinv hqueue

/-- With a command queued the control thread is in its loop. -/
theorem working_of_queue {allowed : Core → Thread × World → Prop} {dir : DataDir}
    {trace : List Event} {core : Core} (hrun : Run system allowed (powerOn dir) trace core)
    (hqueue : core.shared.router.q ≠ []) (hstop : core.shared.stop.stop = false) :
    Working core := by
  have hboot := Boot.run hrun
  have hio : .io ∈ core.main.started := by
    by_contra hnot
    exact io_of_queue hrun hqueue (hboot.idle .io hnot)
  have hexiting : ¬ (core.control = .exiting ∨ core.control = .exited) := fun h => by
    have hset := stop_of_exiting hrun h
    rw [hstop] at hset
    cases hset
  refine ⟨hstop, ?_, not_or.1 hexiting⟩
  rw [hboot.threads]
  exact mem_running (control_mem_started hio) fun hjoined =>
    hexiting (.inr (hboot.finished .control (hboot.joined .control hjoined)))

/-- With a command in process as well. -/
theorem working_of_process {allowed : Core → Thread × World → Prop} {dir : DataDir}
    {trace : List Event} {core : Core} (hrun : Run system allowed (powerOn dir) trace core)
    (hprocess : (inProcess core.control).isSome) (hstop : core.shared.stop.stop = false) :
    Working core := by
  have hnone : ∀ pc, pc = .start ∨ pc = .exiting ∨ pc = .exited → core.control ≠ pc := by
    rintro pc (rfl | rfl | rfl) hpc <;> simp [hpc, inProcess] at hprocess
  exact ⟨hstop, (Boot.run hrun).mem_threads (hnone _ (.inl rfl)) (hnone _ (.inr (.inr rfl))),
    hnone _ (.inr (.inl rfl)), hnone _ (.inr (.inr rfl))⟩

theorem inProcess_of_undecided {pc : ControlPc} (hundecided : (undecided pc).isSome) :
    (inProcess pc).isSome := by
  cases pc <;> simp_all [undecided, inProcess]

/-! ## Every accepted command gets its verdict -/

section Answers

variable {cfg : Config} {dir : DataDir}
variable {exec : Execution (withLocks cfg) (idle (powerOn dir))}

/-- With a command in hand the control thread comes to a verdict, and with none in
hand and one queued it takes one, unless the core is stopped. -/
theorem exists_turn (hflush : cfg.flushAlways = false) (hfair : StronglyFair exec Prod.fst)
    {time : ℕ} {inHand : Bool} (hworking : Working (exec.state time).base)
    (hhand : (undecided (exec.state time).base.control).isSome = inHand)
    (hqueue : inHand = false → (exec.state time).base.shared.router.q ≠ []) :
    ∃ later, time ≤ later ∧ ((exec.state later).base.shared.stop.stop = true ∨
      (undecided (exec.state later).base.control).isSome = !inHand) := by
  have happroaches : Approaches exec (fun thread => thread = .control)
      (fun core => Working core ∧ (undecided core.control).isSome = inHand ∧
        (inHand = false → core.shared.router.q ≠ []))
      (fun core => core.shared.stop.stop = true ∨ (undecided core.control).isSome = !inHand)
      (fun core => untilTake core.control) time := {
    able := fun moment _ hwithin => ⟨.control, rfl,
      (script_ne_nil_iff cfg (single_around (Or.inl hflush))).2
        ⟨hwithin.1.thread, hwithin.1.exiting.2⟩⟩
    closer := by
      rintro moment _ ⟨hworking, hhand, hqueue⟩ hstep
      have hrun := run_base_trace exec moment
      by_cases hgoal : (exec.state (moment + 1)).base.shared.stop.stop = true ∨
          (undecided (exec.state (moment + 1)).base.control).isSome = !inHand
      · exact .inl hgoal
      obtain ⟨hstop, hsame⟩ := not_or.1 hgoal
      rw [Bool.not_eq_not] at hsame
      have htaking : Taking (exec.state moment).base.control → inHand = false := by
        rintro ⟨nowNs, left, hpc⟩
        rw [← hhand, hpc]
        rfl
      obtain ⟨hnext, htaken⟩ := hworking.moves (Boot.run hrun) (stop_of_latched hrun)
        (fun h => hqueue (htaking h)) (moves_of_step hstep) (Bool.eq_false_of_not_eq_true hstop)
      rcases htaken with ⟨hfree, hsome⟩ | ⟨hkept, hle, hlt⟩
      · rw [htaking hfree, hsome] at hsame
        cases hsame
      · exact .inr ⟨⟨hnext, hsame, fun h => hkept (hqueue h)⟩, hle, hlt⟩ }
  exact happroaches.exists_goal (disciplined hflush) (boot_powerOn dir) hfair
    ⟨hworking, hhand, hqueue⟩

/-- What was accepted has its verdict, is in hand or is queued. -/
theorem length_acceptedLines {allowed : Core → Thread × World → Prop} {trace : List Event}
    {core : Core} (hrun : Run system allowed (powerOn dir) trace core) :
    (acceptedLines trace).length =
      (verdicts trace).length + (undecided core.control).toList.length +
        core.shared.router.q.length := by
  obtain ⟨decided, htaken, hmatch⟩ := Decided.run hrun
  have hdelivered := congrArg List.length (Delivered.run hrun)
  have hdequeued := congrArg List.length (takenCommands_fst trace)
  rw [htaken] at hdequeued
  simp only [List.length_map, List.length_append] at hdelivered hdequeued
  rw [hdelivered, ← hdequeued, hmatch.length_eq]

theorem length_verdicts_mono {time later : ℕ} (hle : time ≤ later) :
    (verdicts (exec.trace time)).length ≤ (verdicts (exec.trace later)).length :=
  ((exec.trace_mono hle).filterMap verdict).length_le

/-- A command in hand gets its verdict. -/
theorem exists_verdict_of_hand (hflush : cfg.flushAlways = false)
    (hfair : StronglyFair exec Prod.fst) {time : ℕ}
    (hstop : (exec.state time).base.shared.stop.stop = false)
    (hhand : (undecided (exec.state time).base.control).isSome = true) :
    ∃ later, time ≤ later ∧ ((exec.state later).base.shared.stop.stop = true ∨
      (verdicts (exec.trace time)).length < (verdicts (exec.trace later)).length) := by
  have hrun := run_base_trace exec time
  obtain ⟨later, hle, hturn⟩ := exists_turn hflush hfair
    (working_of_process hrun (inProcess_of_undecided hhand) hstop)
    hhand (fun h => by cases h)
  refine ⟨later, hle, hturn.imp_right fun hnone => ?_⟩
  obtain ⟨decided, htaken, hmatch⟩ := Decided.run hrun
  obtain ⟨decided', htaken', hmatch'⟩ := Decided.run (run_base_trace exec later)
  rw [Bool.not_true, Option.isSome_eq_false_iff, Option.isNone_iff_eq_none] at hnone
  obtain ⟨taken, hsome⟩ := Option.isSome_iff_exists.1 hhand
  have hmore : (takenCommands (exec.trace time)).length ≤
      (takenCommands (exec.trace later)).length :=
    ((exec.trace_mono hle).filterMap takenCommand).length_le
  rw [htaken, htaken', hsome, hnone] at hmore
  simp only [Option.toList_some, Option.toList_none, List.append_nil, List.length_append,
    List.length_singleton, hmatch.length_eq, hmatch'.length_eq] at hmore
  omega

/-- As long as an accepted command has no verdict there is another one to come. -/
theorem exists_verdict (hflush : cfg.flushAlways = false) (hfair : StronglyFair exec Prod.fst)
    {time : ℕ} (hpending : (verdicts (exec.trace time)).length <
      (acceptedLines (exec.trace time)).length) :
    ∃ later, time ≤ later ∧ ((exec.state later).base.shared.stop.stop = true ∨
      (verdicts (exec.trace time)).length < (verdicts (exec.trace later)).length) := by
  have hrun := run_base_trace exec time
  by_cases hstop : (exec.state time).base.shared.stop.stop = true
  · exact ⟨time, Nat.le_refl _, .inl hstop⟩
  have hclear := Bool.eq_false_of_not_eq_true hstop
  by_cases hhand : (undecided (exec.state time).base.control).isSome = true
  · exact exists_verdict_of_hand hflush hfair hclear hhand
  have hidle := Bool.eq_false_of_not_eq_true hhand
  have hqueue : (exec.state time).base.shared.router.q ≠ [] := by
    intro hnil
    have hcount := length_acceptedLines hrun
    rw [Option.isSome_eq_false_iff, Option.isNone_iff_eq_none] at hidle
    rw [hnil, hidle] at hcount
    simp only [Option.toList_none, List.length_nil] at hcount
    omega
  obtain ⟨taking, hle, hturn⟩ := exists_turn hflush hfair
    (working_of_queue hrun hqueue hclear) hidle (fun _ => hqueue)
  by_cases hstopped : (exec.state taking).base.shared.stop.stop = true
  · exact ⟨taking, hle, .inl hstopped⟩
  obtain ⟨later, hlater, hverdict⟩ := exists_verdict_of_hand hflush hfair
    (Bool.eq_false_of_not_eq_true hstopped) (hturn.resolve_left hstopped)
  exact ⟨later, by omega, hverdict.imp_right (length_verdicts_mono hle).trans_lt⟩

/-- Verdicts are given in the order of acceptance. -/
theorem verdicts_of_acceptedLines {allowed : Core → Thread × World → Prop} {trace : List Event}
    {core : Core} (hrun : Run system allowed (powerOn dir) trace core) :
    (verdicts trace).map Prod.fst <+: (acceptedLines trace).map Prod.snd := by
  rw [Delivered.run hrun, ← (Decided.run hrun).verdicts_fst, List.append_assoc]
  exact List.prefix_append _ _

/-- All commands accepted so far get their verdicts, in order, or the core is
stopped before. -/
theorem exists_answered (hflush : cfg.flushAlways = false) (hfair : StronglyFair exec Prod.fst)
    (time : ℕ) : ∃ later, time ≤ later ∧ ((exec.state later).base.shared.stop.stop = true ∨
      (acceptedLines (exec.trace time)).map Prod.snd <+:
        (verdicts (exec.trace later)).map Prod.fst) := by
  have hgrown : ∀ moment, time ≤ moment → (acceptedLines (exec.trace time)).length ≤
      (acceptedLines (exec.trace moment)).length := fun moment hle =>
    ((exec.trace_mono hle).filterMap acceptedLine).length_le
  have henough : ∃ later, time ≤ later ∧ ((exec.state later).base.shared.stop.stop = true ∨
      (acceptedLines (exec.trace time)).length ≤ (verdicts (exec.trace later)).length) :=
    exists_le_of_grows fun moment hmoment hless =>
      exists_verdict hflush hfair (hless.trans_le (hgrown moment hmoment))
  obtain ⟨later, hle, hend⟩ := henough
  refine ⟨later, hle, hend.imp_right fun hcount => ?_⟩
  have hsame := ((exec.trace_mono hle).filterMap acceptedLine).map Prod.snd
  exact List.prefix_of_prefix_length_le hsame
    (verdicts_of_acceptedLines (run_base_trace exec later)) (by simpa using hcount)

/-- In a fair run every command that is accepted gets its verdict, in the order of
acceptance, unless a stop is requested. -/
theorem accepted_commands_answered (cfg : Config) (dir : DataDir)
    (exec : Execution (withLocks cfg) (idle (powerOn dir))) (hfair : StronglyFair exec Prod.fst)
    (hquiet : NeverFlushes exec) (time : ℕ) :
    ∃ later, time ≤ later ∧ ((exec.state later).base.shared.stop.stop = true ∨
      (acceptedLines (exec.trace time)).map Prod.snd <+:
        (verdicts (exec.trace later)).map Prod.fst) := by
  obtain ⟨other, hother, hstate, hevents⟩ := exists_unflushed hfair hquiet
  have htrace : other.trace = exec.trace := funext fun time => by
    rw [Execution.trace, Execution.trace, hevents]
  simpa only [hstate, htrace] using exists_answered rfl hother time

theorem mem_acceptedLines {time offset : ℕ} {line : Bytes} {env : CommandEnvelope}
    (haccepted : .lineDone offset line (some (env, queuedResult)) ∈ exec.events time) :
    env ∈ (acceptedLines (exec.trace (time + 1))).map Prod.snd := by
  refine List.mem_map.2 ⟨(offset, env), List.mem_filterMap.2
    ⟨.lineDone offset line (some (env, queuedResult)), ?_, by simp [acceptedLine, queuedResult]⟩,
    rfl⟩
  rw [exec.trace_succ]
  exact List.mem_append_right _ haccepted

/-- The verdict on a command that stops the core, once given, has stopped it. -/
theorem stop_of_verdict {allowed : Core → Thread × World → Prop} {trace : List Event}
    {core : Core} (hrun : Run system allowed (powerOn dir) trace core) {env : CommandEnvelope}
    (hcommand : env.command ∈ stopCommands) (hnever : ∀ nowNs, isExpired env nowNs = false)
    (hverdict : env ∈ (verdicts trace).map Prod.fst) : core.shared.stop.stop = true := by
  obtain ⟨⟨cmd, result⟩, hmem, rfl⟩ := List.mem_map.1 hverdict
  obtain ⟨decided, -, hmatch⟩ := Decided.run hrun
  obtain ⟨⟨taken, nowNs⟩, -, hsame, hanswers⟩ := exists_of_forall₂ hmatch hmem
  obtain rfl : cmd = taken := hsame
  have hstatus : result.status ≠ .rejected := by
    cases hanswers with
    | stale hexpired =>
        rw [hnever] at hexpired
        cases hexpired
    | unsupported hfresh hunnamed =>
        simp only [stopCommands, List.mem_cons, List.not_mem_nil, or_false] at hcommand
        rcases hcommand with h | h | h <;> exact absurd h.symm (hunnamed _)
    | handled name handler result hfresh hname hrow hreturns =>
        rcases handler_of_stops hname hrow hcommand with rfl | rfl | rfl <;> cases hreturns <;>
          decide
  obtain ⟨event, hevent, hprocessed⟩ := List.mem_filterMap.1 hmem
  have hdone : .processed cmd result ∈ trace := by cases event <;> simp_all [verdict]
  exact ((Truthful.run hrun).done cmd result hdone).stops hcommand hstatus

/-- An `EmergencyStop`, `Shutdown` or `Reboot` that is accepted and never expires
gets the stop requested, whatever is queued before it and whatever arrives later;
and once the clients stop writing `run` returns. -/
theorem stop_command_ends_run (cfg : Config) (dir : DataDir)
    (exec : Execution (withLocks cfg) (idle (powerOn dir))) (hfair : StronglyFair exec Prod.fst)
    (hquiet : NeverFlushes exec) (time offset : ℕ) (line : Bytes) (env : CommandEnvelope)
    (haccepted : .lineDone offset line (some (env, queuedResult)) ∈ exec.events time)
    (hcommand : env.command ∈ stopCommands) (hnever : ∀ nowNs, isExpired env nowNs = false) :
    (∃ later, time < later ∧ (exec.state later).base.shared.stop.stop = true) ∧
      ((∃ silence, SilentFrom exec silence) → ∃ later, time < later ∧
        (exec.state later).base.main = .returned 0 ∧
          Shutdown.CleanExit dir (exec.trace later) (exec.state later).base) := by
  obtain ⟨other, hother, hstate, hevents⟩ := exists_unflushed hfair hquiet
  have hmem : env ∈ (acceptedLines (other.trace (time + 1))).map Prod.snd :=
    mem_acceptedLines (hevents ▸ haccepted)
  have hstop : ∃ later, time < later ∧ (exec.state later).base.shared.stop.stop = true := by
    obtain ⟨later, hle, hend⟩ := exists_answered rfl hother (time + 1)
    refine ⟨later, hle, ?_⟩
    rw [← hstate]
    refine hend.elim id fun hanswered => ?_
    exact stop_of_verdict (run_base_trace other later) hcommand hnever (hanswered.subset hmem)
  refine ⟨hstop, fun ⟨silence, hsilent⟩ => ?_⟩
  obtain ⟨requested, hlt, hstop⟩ := hstop
  obtain ⟨later, hle, hreturned⟩ := exists_returned_of_stop hfair hquiet hstop hsilent
  exact ⟨later, by omega, hreturned,
    Shutdown.cleanExit_of_returned (run_base_trace exec later) hreturned⟩

end Answers

theorem accepted_commands_answered_shutdown :
    ∃ (exec : Execution (withLocks (unflushed mainConfig)) (idle (powerOn shutdownDir)))
      (time later : ℕ), StronglyFair exec Prod.fst ∧
      plainCommand .shutdown 1 ∈ (acceptedLines (exec.trace time)).map Prod.snd ∧
        ((exec.state later).base.shared.stop.stop = true ∨
          (acceptedLines (exec.trace time)).map Prod.snd <+:
            (verdicts (exec.trace later)).map Prod.fst) := by
  obtain ⟨exec, hfair, -, ⟨time, haccepted⟩, -⟩ :=
    exists_silent_shutdown (show (unflushed mainConfig).flushAlways = false from rfl)
  obtain ⟨later, -, hanswered⟩ := accepted_commands_answered (unflushed mainConfig) shutdownDir
    exec hfair (.inl rfl) (time + 1)
  exact ⟨exec, time + 1, later, hfair, mem_acceptedLines haccepted, hanswered⟩

theorem stop_command_ends_run_shutdown :
    ∃ (exec : Execution (withLocks (unflushed mainConfig)) (idle (powerOn shutdownDir)))
      (accepted time : ℕ), StronglyFair exec Prod.fst ∧ SilentFrom exec 0 ∧
        .lineDone 0 (plainLine .shutdown 1) (some (plainCommand .shutdown 1, queuedResult)) ∈
          exec.events accepted ∧ accepted < time ∧
        (exec.state time).base.main = .returned 0 ∧
        Shutdown.CleanExit shutdownDir (exec.trace time) (exec.state time).base := by
  obtain ⟨exec, hfair, hsilent, ⟨time, haccepted⟩, -⟩ :=
    exists_silent_shutdown (show (unflushed mainConfig).flushAlways = false from rfl)
  obtain ⟨later, hlt, hreturned, hexit⟩ :=
    (stop_command_ends_run (unflushed mainConfig) shutdownDir exec hfair (.inl rfl) time 0 _ _
      haccepted (by decide) fun _ => rfl).2 ⟨0, hsilent⟩
  exact ⟨exec, time, later, hfair, hsilent, haccepted, hlt, hreturned, hexit⟩

end ArcravenUgv.Obeyed
