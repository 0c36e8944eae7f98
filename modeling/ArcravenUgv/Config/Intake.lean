import ArcravenUgv.Config.Boot

/-!
# From the command file to the queue

What the IO thread has read, what of it was accepted, and what the control
thread has taken of that.  `pump_rx` reads on whatever `submit` answers, so a
line is sure of its place only if there is room for it.
-/

namespace ArcravenUgv.Intake

open ArcravenUgv.Enums
open ArcravenUgv.Command
open ArcravenUgv.Command.CommandRouter
open ArcravenUgv.Decimal
open ArcravenUgv.Delimited
open ArcravenUgv.CommandLine
open ArcravenUgv.Bridge
open ArcravenUgv.Runs
open ArcravenUgv.Runtime

/-- The line an accepted command was read from, by its offset in the file, and
the command. -/
def acceptedLine : Event → Option (ℕ × CommandEnvelope)
  | .lineDone offset _ (some (env, answer)) =>
      if answer.status = .accepted then some (offset, env) else none
  | _ => none

def dequeuedCommand : Event → Option CommandEnvelope
  | .dequeued cmd _ => some cmd
  | _ => none

/-- The accepted lines in the order of their acceptance. -/
def acceptedLines (trace : List Event) : List (ℕ × CommandEnvelope) :=
  trace.filterMap acceptedLine

/-- The commands the control thread has taken off the queue, in order. -/
def dequeuedCommands (trace : List Event) : List CommandEnvelope :=
  trace.filterMap dequeuedCommand

/-- What was accepted is what was taken followed by what is queued. -/
def Delivered (trace : List Event) (core : Core) : Prop :=
  (acceptedLines trace).map Prod.snd = dequeuedCommands trace ++ core.shared.router.q

@[simp]
theorem acceptedLines_append (trace events : List Event) :
    acceptedLines (trace ++ events) = acceptedLines trace ++ acceptedLines events :=
  List.filterMap_append ..

@[simp]
theorem dequeuedCommands_append (trace events : List Event) :
    dequeuedCommands (trace ++ events) = dequeuedCommands trace ++ dequeuedCommands events :=
  List.filterMap_append ..

theorem Delivered.quiet {trace events : List Event} {core next : Core}
    (hdelivered : Delivered trace core) (hq : next.shared.router.q = core.shared.router.q)
    (haccepted : acceptedLines events = []) (hdequeued : dequeuedCommands events = []) :
    Delivered (trace ++ events) next := by
  simpa [Delivered, hq, haccepted, hdequeued] using hdelivered

theorem Delivered.io {trace events : List Event} {core : Core} {shared : Shared} {pc : IoPc}
    (hdelivered : Delivered trace core)
    (hmoves : IoMoves core.shared core.io shared pc events) :
    Delivered (trace ++ events) { core with shared := shared, io := pc } := by
  cases hmoves with
  | submit offset line atEnd env hpc henvelope =>
      rcases submit_cases core.shared.router env with ⟨-, -, hsubmit⟩ | ⟨hsame, hstatus⟩
      · have haccepted :
            acceptedLines [.lineDone offset line (some (env, queuedResult))] = [(offset, env)] :=
          rfl
        have hdequeued :
            dequeuedCommands [.lineDone offset line (some (env, queuedResult))] = [] := rfl
        rw [Delivered] at hdelivered ⊢
        simp [hsubmit, haccepted, hdequeued, hdelivered]
      · refine hdelivered.quiet (by rw [hsame]) ?_ rfl
        exact List.filterMap_cons_none (if_neg (by simp [hstatus]))
  | _ => exact hdelivered.quiet rfl rfl rfl

theorem Delivered.control {trace events : List Event} {world : World} {core : Core}
    {shared : Shared} {pc : ControlPc} (hdelivered : Delivered trace core)
    (hmoves : ControlMoves world core.shared core.control shared pc events) :
    Delivered (trace ++ events) { core with shared := shared, control := pc } := by
  cases hmoves with
  | dequeue nowNs left cmd rest hpc hq =>
      have haccepted : acceptedLines [.dequeued cmd nowNs] = [] := rfl
      have hdequeued : dequeuedCommands [.dequeued cmd nowNs] = [cmd] := rfl
      simpa [Delivered, haccepted, hdequeued, hq] using hdelivered
  | handle nowNs left cmd before after shared events hpc hhandler =>
      cases hhandler <;> exact hdelivered.quiet rfl rfl rfl
  | _ => exact hdelivered.quiet rfl rfl rfl

theorem Delivered.moves {trace events : List Event} {world : World} {core next : Core}
    {thread : Thread} (hdelivered : Delivered trace core)
    (hmoves : PathMoves world core thread next events) : Delivered (trace ++ events) next := by
  cases hmoves with
  | io shared pc events hthread hmoves => exact hdelivered.io hmoves
  | control shared pc events hthread hmoves => exact hdelivered.control hmoves
  | append => exact hdelivered.quiet rfl rfl rfl
  | aside thread next events haside =>
      refine hdelivered.quiet haside.queue (haside.filterMap_eq_nil ?_)
        (haside.filterMap_eq_nil ?_)
      all_goals
        intro event hevent
        cases event <;> simp_all [Event.OnPath, acceptedLine, dequeuedCommand]

theorem Delivered.run {allowed : Core → Thread × World → Prop} {dir : DataDir}
    {trace : List Event} {core : Core}
    (hrun : Run system allowed (powerOn dir) trace core) : Delivered trace core := by
  refine hrun.invariant Delivered rfl ?_
  intro trace core label next events _ hdelivered _ hstep
  exact hdelivered.moves (moves_of_step hstep).path

/-- The line that was accepted after `before` is the next command to be queued,
and it is dequeued or still queued ever after. -/
theorem Delivered.position {before after : List Event} {core : Core} {offset : ℕ}
    {line : Bytes} {env : CommandEnvelope}
    (hdelivered : Delivered
      (before ++ .lineDone offset line (some (env, queuedResult)) :: after) core) :
    (dequeuedCommands (before ++ .lineDone offset line (some (env, queuedResult)) :: after) ++
      core.shared.router.q)[(acceptedLines before).length]? = some env := by
  rw [← hdelivered]
  simp [acceptedLines, acceptedLine, queuedResult]

/-! ## Room for a line -/

/-- When the IO thread has a wanted line in its hands, the line has a payload,
its `command_id` is not zero and the queue is not full. -/
def RoomFor (wanted : CommandEnvelope → Prop) (core : Core) (label : Thread × World) : Prop :=
  label.1 = .io → ∀ offset line atEnd env, core.io = .body offset line atEnd →
    WellFormed line env → wanted env →
      HasPayload line ∧ env.commandId ≠ 0 ∧
        core.shared.router.q.length < core.shared.router.cfg.maxQueue

/-- The line in hand is going to be queued: a form of `RoomFor` that can be
executed. -/
def Queueable (core : Core) (label : Thread × World) : Prop :=
  match label.1, core.io with
  | .io, .body _ line _ =>
      match lineEnvelope line with
      | none => False
      | some env => env.commandId ≠ 0 ∧
          core.shared.router.q.length < core.shared.router.cfg.maxQueue
  | _, _ => True

theorem roomFor_of_queueable (wanted : CommandEnvelope → Prop) {core : Core}
    {label : Thread × World} (hqueueable : Queueable core label) :
    RoomFor wanted core label := by
  intro hthread offset line atEnd env hpc hline _
  rw [Queueable, hthread, hpc] at hqueueable
  by_cases hpayload : HasPayload line
  · simpa [hline.lineEnvelope_eq, hpayload] using hqueueable
  · simp [hline.lineEnvelope_eq, hpayload] at hqueueable

instance (core : Core) (label : Thread × World) : Decidable (Queueable core label) := by
  unfold Queueable
  split
  · split <;> infer_instance
  · infer_instance

/-- Every wanted line so far was accepted. -/
def Admitted (wanted : CommandEnvelope → Prop) (trace : List Event) : Prop :=
  ∀ offset line answer env, .lineDone offset line answer ∈ trace → WellFormed line env →
    wanted env → answer = some (env, queuedResult)

theorem Admitted.quiet {wanted : CommandEnvelope → Prop} {trace events : List Event}
    (hadmitted : Admitted wanted trace)
    (hquiet : ∀ offset line answer, .lineDone offset line answer ∉ events) :
    Admitted wanted (trace ++ events) := by
  intro offset line answer env hmem
  exact hadmitted offset line answer env
    ((List.mem_append.1 hmem).resolve_right (hquiet offset line answer))

theorem Admitted.io {wanted : CommandEnvelope → Prop} {trace events : List Event}
    {world : World} {core : Core} {shared : Shared} {pc : IoPc}
    (hadmitted : Admitted wanted trace) (hallowed : RoomFor wanted core (.io, world))
    (hmoves : IoMoves core.shared core.io shared pc events) :
    Admitted wanted (trace ++ events) := by
  cases hmoves with
  | ignore offset line atEnd hpc henvelope =>
      intro offset' line' answer env hmem hline hwanted
      rcases List.mem_append.1 hmem with hmem | hmem
      · exact hadmitted _ _ _ _ hmem hline hwanted
      · obtain ⟨rfl, rfl, rfl⟩ : offset' = offset ∧ line' = line ∧ answer = none := by
          simpa using hmem
        have hpayload := (hallowed rfl _ _ _ _ hpc hline hwanted).1
        simp [hline.lineEnvelope_eq, hpayload] at henvelope
  | submit offset line atEnd read hpc henvelope =>
      intro offset' line' answer env hmem hline hwanted
      rcases List.mem_append.1 hmem with hmem | hmem
      · exact hadmitted _ _ _ _ hmem hline hwanted
      · obtain ⟨rfl, rfl, rfl⟩ : offset' = offset ∧ line' = line ∧
            answer = some (read, (core.shared.router.submit read).2) := by
          simpa using hmem
        obtain ⟨hpayload, hid, hroom⟩ := hallowed rfl _ _ _ _ hpc hline hwanted
        rw [hline.lineEnvelope_eq, if_pos hpayload, Option.some.injEq] at henvelope
        rw [← henvelope, submit_of_accepted hroom hid]
  | _ => exact hadmitted.quiet (by simp)

theorem Admitted.moves {wanted : CommandEnvelope → Prop} {trace events : List Event}
    {world : World} {core next : Core} {thread : Thread} (hadmitted : Admitted wanted trace)
    (hroom : RoomFor wanted core (thread, world))
    (hmoves : PathMoves world core thread next events) : Admitted wanted (trace ++ events) := by
  cases hmoves with
  | io shared pc events hthread hmoves => exact hadmitted.io hroom hmoves
  | control shared pc events hthread hmoves =>
      cases hmoves with
      | handle nowNs left cmd before after shared events hpc hhandler =>
          cases hhandler <;> exact hadmitted.quiet (by simp)
      | _ => exact hadmitted.quiet (by simp)
  | append => exact hadmitted.quiet (by simp)
  | aside thread next events haside =>
      exact hadmitted.quiet fun offset line answer hmem => haside.silent _ hmem trivial

theorem Admitted.run {wanted : CommandEnvelope → Prop}
    {allowed : Core → Thread × World → Prop} {dir : DataDir} {trace : List Event}
    {core : Core} (hallowed : ∀ core label, allowed core label → RoomFor wanted core label)
    (hrun : Run system allowed (powerOn dir) trace core) : Admitted wanted trace := by
  refine hrun.invariant (fun trace _ => Admitted wanted trace) (by simp [Admitted]) ?_
  intro trace core label next events _ hadmitted hlabel hstep
  exact hadmitted.moves (hallowed core label hlabel) (moves_of_step hstep).path

/-! ## Emergency stops -/

/-- An emergency stop with a `command_id`. -/
def IsStop (env : CommandEnvelope) : Prop :=
  env.command = UgvCommand.emergencyStop.wire ∧ env.commandId ≠ 0

/-- Every well-formed emergency stop whose turn in `pump_rx` is over was
queued, and at its place in the order of acceptance it is dequeued or still
waiting. -/
def StopsKept (trace : List Event) (core : Core) : Prop :=
  ∀ before offset line answer after env,
    trace = before ++ .lineDone offset line answer :: after → WellFormed line env →
      IsStop env → answer = some (env, queuedResult) ∧
        (dequeuedCommands trace ++ core.shared.router.q)[(acceptedLines before).length]? =
          some env

/-- With room in the queue whenever an emergency stop is read, and a payload in
its line, none is ever lost. -/
theorem stopsKept_of_room (dir : DataDir) (trace : List Event) (core : Core)
    (hrun : Run system (RoomFor IsStop) (powerOn dir) trace core) : StopsKept trace core := by
  rintro before offset line answer after env rfl hline hstop
  have hadmitted := Admitted.run (fun _ _ => id) hrun
  obtain rfl := hadmitted offset line answer env (by simp) hline hstop
  exact ⟨rfl, (Delivered.run hrun).position⟩

/-- An emergency stop that is read while the queue is empty. -/
theorem stopsKept_single :
    ∃ core, Run system (RoomFor IsStop) (powerOn (freshDir (ascii "C|1|700|0|0|0|0|0|AA==\n")))
        [submitted 0 "C|1|700|0|0|0|0|0|AA==" (plainCommand .emergencyStop 1)] core ∧
      StopsKept [submitted 0 "C|1|700|0|0|0|0|0|AA==" (plainCommand .emergencyStop 1)] core := by
  obtain ⟨core, hrun⟩ := exists_run_of_trace system Queueable
    (powerOn (freshDir (ascii "C|1|700|0|0|0|0|0|AA==\n"))) (bootSchedule ++ times 5 .io)
    (show _ = some [submitted 0 "C|1|700|0|0|0|0|0|AA==" (plainCommand .emergencyStop 1)] by
      decide +kernel)
  have hroom := hrun.mono fun _ _ hqueueable => roomFor_of_queueable IsStop hqueueable
  exact ⟨core, hroom, stopsKept_of_room _ _ core hroom⟩

/-! ## A burst of commands -/

section Burst

/-- The core with a line just read. -/
def inBody (core : Core) (line : Bytes) : Core :=
  { core with
    shared := { core.shared with
      bridge := { core.shared.bridge with
        commandOffset := core.shared.bridge.commandOffset + (line.length + 1) } }
    io := .body core.shared.bridge.commandOffset line false }

/-- The core with that line's command submitted. -/
def afterLine (core : Core) (line : Bytes) (env : CommandEnvelope) : Core :=
  { inBody core line with
    shared := { (inBody core line).shared with router := (core.shared.router.submit env).1 }
    io := .getline false }

/-- The IO thread reads a line and submits its command, no other thread moving
in between. -/
theorem run_line {core : Core} {line rest : Bytes} {env : CommandEnvelope}
    (hthread : .io ∈ core.shared.threads) (hio : core.io = .getline false)
    (hfile : core.shared.commandsIn.drop core.shared.bridge.commandOffset =
      line ++ newline :: rest)
    (hfree : newline ∉ line) (henvelope : lineEnvelope line = some env) :
    Run system always core
      [.lineDone core.shared.bridge.commandOffset line
        (some (env, (core.shared.router.submit env).2))]
      (afterLine core line env) := by
  have hline : getline core.shared.commandsIn core.shared.bridge.commandOffset =
      some (line, false) := by
    simp [getline, hfile, nextSegment_append hfree]
  have htake : system.step core (.io, {}) =
      some (inBody core line, []) := by
    simp [system, step, hthread, hio, ioStep, hline, inBody]
  have hsubmit : system.step (inBody core line) (.io, {}) =
      some (afterLine core line env, [.lineDone core.shared.bridge.commandOffset line
        (some (env, (core.shared.router.submit env).2))]) := by
    simp [system, step, hthread, ioStep, henvelope, inBody, afterLine]
  exact (Run.single trivial htake).append (Run.single trivial hsubmit)

/-- The IO thread is inside `pump_rx`, with `rest` still to read and so many
commands in the queue. -/
structure Reading (core : Core) (rest : Bytes) (count : ℕ) : Prop where
  thread : Thread.io ∈ core.shared.threads
  io : core.io = .getline false
  file : core.shared.commandsIn.drop core.shared.bridge.commandOffset = rest
  queued : core.shared.router.q.length = count
  maxQueue : core.shared.router.cfg.maxQueue = 256

theorem Reading.queue {core : Core} {line rest : Bytes} {env : CommandEnvelope} {count : ℕ}
    (hreading : Reading core (line ++ newline :: rest) count) (hid : env.commandId ≠ 0)
    (hroom : count < 256) : Reading (afterLine core line env) rest (count + 1) := by
  have hlength : core.shared.router.q.length < core.shared.router.cfg.maxQueue := by
    rwa [hreading.queued, hreading.maxQueue]
  exact {
    thread := hreading.thread
    io := rfl
    file := by
      simp only [afterLine, inBody]
      rw [← List.drop_drop, hreading.file, List.append_cons]
      simp
    queued := by simp [afterLine, submit_of_accepted hlength hid, hreading.queued]
    maxQueue := by simp [afterLine, hreading.maxQueue] }

/-- Lines that are read while there is room are queued. -/
theorem Reading.fill {line : Bytes} {env : CommandEnvelope} (hfree : newline ∉ line)
    (henvelope : lineEnvelope line = some env) (hid : env.commandId ≠ 0) (lines : ℕ)
    {core : Core} {rest : Bytes} {count : ℕ}
    (hreading : Reading core ((List.replicate lines (line ++ [newline])).flatten ++ rest) count)
    (hroom : count + lines ≤ 256) :
    ∃ trace last, Run system always core trace last ∧ Reading last rest (count + lines) := by
  induction lines generalizing core count with
  | zero => exact ⟨[], core, .start, by simpa using hreading⟩
  | succ lines ih =>
      have hnext : Reading core
          (line ++ newline :: ((List.replicate lines (line ++ [newline])).flatten ++ rest))
          count := by
        simpa [List.replicate_succ] using hreading
      have hread := run_line hnext.thread hnext.io hnext.file hfree henvelope
      obtain ⟨trace, last, hrun, hlast⟩ := ih (hnext.queue hid (by omega)) (by omega)
      exact ⟨_, last, hread.append hrun, by rwa [Nat.add_assoc, Nat.add_comm 1 lines] at hlast⟩

theorem Reading.refuse {core : Core} {line rest : Bytes} {env : CommandEnvelope}
    (hreading : Reading core (line ++ newline :: rest) 256) (hfree : newline ∉ line)
    (henvelope : lineEnvelope line = some env) :
    ∃ last, Run system always core
      [.lineDone core.shared.bridge.commandOffset line (some (env, queueFull))] last := by
  have hread := run_line hreading.thread hreading.io hreading.file hfree henvelope
  have hfull : (core.shared.router.submit env).2 = queueFull := by
    rw [submit, if_pos (by rw [hreading.queued, hreading.maxQueue])]
  rw [hfull] at hread
  exact ⟨_, hread⟩

end Burst

/-- More commands than the queue holds, and then an emergency stop. -/
private def burst : Bytes :=
  (List.replicate 256 (plainLine .goTo 1 ++ [newline])).flatten ++
    (plainLine .emergencyStop 2 ++ newline :: [])

/-- A client appends 256 commands and an emergency stop before the control
thread runs: the emergency stop is discarded. -/
theorem stop_discarded_after_burst :
    ∃ (dir : DataDir) (trace : List Event) (core : Core),
      Run system always (powerOn dir) trace core ∧ ¬ StopsKept trace core := by
  obtain ⟨ready, hboot, hready⟩ := exists_run_of_execute system always (powerOn (freshDir []))
    (bootSchedule ++ times 3 .io)
    (fun core => decide (Thread.io ∈ core.shared.threads ∧ core.io = .getline false ∧
      core.shared.commandsIn = [] ∧ core.shared.bridge.commandOffset = 0 ∧
      core.shared.router.q.length = 0 ∧ core.shared.router.cfg.maxQueue = 256))
    (show _ = some ([], true) by decide +kernel)
  obtain ⟨hthread, hio, hfile, hoffset, hqueued, hmaxQueue⟩ := of_decide_eq_true hready
  have happend : system.step ready (.client, { chunk := burst }) =
      some ({ ready with shared := { ready.shared with commandsIn := burst } }, []) := by
    simp [system, step, hfile]
  have hreading : Reading { ready with shared := { ready.shared with commandsIn := burst } }
      ((List.replicate 256 (plainLine .goTo 1 ++ [newline])).flatten ++
        (plainLine .emergencyStop 2 ++ newline :: [])) 0 := {
    thread := hthread
    io := hio
    file := by rw [hoffset, List.drop_zero, burst]
    queued := hqueued
    maxQueue := hmaxQueue }
  obtain ⟨queueing, full, hfill, hfull⟩ := hreading.fill (newline_not_mem_plainLine _ _)
    (lineEnvelope_plainLine _ _) (by decide) 256 (by decide)
  obtain ⟨last, hrefuse⟩ := hfull.refuse (newline_not_mem_plainLine _ _)
    (lineEnvelope_plainLine _ _)
  refine ⟨_, _, last,
    ((hboot.append (Run.single trivial happend)).append hfill).append hrefuse, fun hkept => ?_⟩
  have hqueued := (hkept _ _ _ _ [] _ rfl (wellFormed_plainLine .emergencyStop 2)
    ⟨rfl, by decide⟩).1
  cases hqueued

end ArcravenUgv.Intake
