import ArcravenUgv.Config.HeldUp
import ArcravenUgv.Config.Obeyed

/-!
# From the line to its record

Unless a stop is requested, `run` comes up, the IO thread reads what the clients have
written, and the control thread publishes a result for each command it was handed, in
the order of the lines and whatever arrives meanwhile.
-/

namespace ArcravenUgv.Answered

open ArcravenUgv.Command
open ArcravenUgv.Delimited
open ArcravenUgv.CommandLine
open ArcravenUgv.Bridge
open ArcravenUgv.Runs
open ArcravenUgv.Fair
open ArcravenUgv.Mutex
open ArcravenUgv.Logger
open ArcravenUgv.Runtime
open ArcravenUgv.Locks
open ArcravenUgv.SelfLock
open ArcravenUgv.ReadLines
open ArcravenUgv.Intake
open ArcravenUgv.Acknowledge
open ArcravenUgv.Verdicts
open ArcravenUgv.Terminates
open ArcravenUgv.Obeyed

variable {cfg : Config} {dir : DataDir}

/-! ## `run` comes up -/

/-- `run` has refused to come up, or has started all its threads. -/
def Started (pc : MainPc) : Prop := pc = .returned 2 ∨ .io ∈ pc.started

section Starts

variable {world : World} {core next : Core} {events : List Event}

theorem canMove_of_not_started (hboot : Boot core) (hstarted : ¬ Started core.main) :
    CanMove core .main := by
  have hlive := hboot.live
  cases hpc : core.main with
  | joining code count =>
      simp [hpc, Started, MainPc.started, allThreads, runtimeThreads] at hstarted
  | returned code =>
      rw [hpc] at hlive hstarted
      rcases hlive with rfl | rfl <;>
        simp [Started, MainPc.started, allThreads, runtimeThreads] at hstarted
  | _ => simp [CanMove, hpc]

/-- Until then main comes closer with each of its steps. -/
theorem started_or_closer {thread : Thread} (hboot : Boot core) (hstarted : ¬ Started core.main)
    (hmoves : Moves world core thread next events) :
    mainLeft next.main ≤ mainLeft core.main ∧
      (thread = .main → mainLeft next.main < mainLeft core.main) := by
  by_cases hmain : thread = .main
  · subst hmain
    have htest : core.main ≠ .testStop := fun hpc =>
      hstarted (.inr (by simp [hpc, MainPc.started, allThreads, runtimeThreads]))
    cases hmoves with
    | main shared pc events hmoves =>
        have hlt := mainLeft_lt hboot (fun h => absurd h htest) hmoves
        exact ⟨hlt.le, fun _ => hlt⟩
  · rw [Drives.main_of_moves hmoves hmain]
    exact ⟨Nat.le_refl _, fun h => absurd h hmain⟩

end Starts

section Answers

variable {exec : Execution (withLocks cfg) (idle (powerOn dir))}

/-- `commands.in` only grows. -/
theorem commandsIn_mono (exec : Execution (withLocks cfg) (idle (powerOn dir)))
    {time later : ℕ} (hle : time ≤ later) :
    (exec.state time).base.shared.commandsIn.length ≤
      (exec.state later).base.shared.commandsIn.length := by
  refine exec.until (fun state => (exec.state time).base.shared.commandsIn.length ≤
    state.base.shared.commandsIn.length) hle (Nat.le_refl _) ?_
  intro moment _ _ hgrown
  rcases baseStep_or_same exec moment with hstep | hsame
  · rcases commandsIn_of_moves (moves_of_step hstep).path with ⟨-, happend⟩ | hsame
    · rw [happend, List.length_append]
      exact hgrown.trans (Nat.le_add_right _ _)
    · rwa [hsame]
  · rwa [hsame]

theorem exists_started (hflush : cfg.flushAlways = false) (hfair : StronglyFair exec Prod.fst)
    (time : ℕ) : ∃ later, time ≤ later ∧ Started (exec.state later).base.main := by
  by_cases hstarted : Started (exec.state time).base.main
  · exact ⟨time, Nat.le_refl _, hstarted⟩
  have happroaches : Approaches exec (fun thread => thread = .main)
      (fun core => ¬ Started core.main) (fun core => Started core.main)
      (fun core => mainLeft core.main) time := {
    able := fun moment _ hwithin => ⟨.main, rfl,
      (script_ne_nil_iff cfg (single_around (Or.inl hflush))).2
        (canMove_of_not_started (Boot.run (run_base_trace exec moment)) hwithin)⟩
    closer := by
      intro moment _ hwithin hstep
      by_cases hgoal : Started (exec.state (moment + 1)).base.main
      · exact .inl hgoal
      · exact .inr ⟨hgoal, started_or_closer (Boot.run (run_base_trace exec moment)) hwithin
          (moves_of_step hstep)⟩ }
  exact happroaches.exists_goal (disciplined hflush) (boot_powerOn dir) hfair hstarted

/-- The command in process is done with, unless the core is stopped. -/
theorem exists_unprocessed (hflush : cfg.flushAlways = false)
    (hfair : StronglyFair exec Prod.fst) {time : ℕ}
    (hprocess : (inProcess (exec.state time).base.control).isSome)
    (hstop : (exec.state time).base.shared.stop.stop = false) :
    ∃ later, time ≤ later ∧ ((exec.state later).base.shared.stop.stop = true ∨
      inProcess (exec.state later).base.control = none) := by
  have happroaches : Approaches exec (fun thread => thread = .control)
      (fun core => Working core ∧ inProcess core.control ≠ none)
      (fun core => core.shared.stop.stop = true ∨ inProcess core.control = none)
      (fun core => untilTake core.control) time := {
    able := fun moment _ hwithin => ⟨.control, rfl,
      (script_ne_nil_iff cfg (single_around (Or.inl hflush))).2
        ⟨hwithin.1.thread, hwithin.1.exiting.2⟩⟩
    closer := by
      rintro moment _ ⟨hworking, hprocess⟩ hstep
      have hrun := run_base_trace exec moment
      by_cases hgoal : (exec.state (moment + 1)).base.shared.stop.stop = true ∨
          inProcess (exec.state (moment + 1)).base.control = none
      · exact .inl hgoal
      obtain ⟨hstop, hnext⟩ := not_or.1 hgoal
      have hbusy : ¬ Taking (exec.state moment).base.control := by
        rintro ⟨nowNs, left, hpc⟩
        rw [hpc] at hprocess
        exact hprocess rfl
      obtain ⟨hworking', htaken⟩ := hworking.moves (Boot.run hrun) (stop_of_latched hrun)
        (fun h => absurd h hbusy) (moves_of_step hstep) (Bool.eq_false_of_not_eq_true hstop)
      exact .inr ⟨⟨hworking', hnext⟩, (htaken.resolve_left fun h => hbusy h.1).2⟩ }
  exact happroaches.exists_goal (disciplined hflush) (boot_powerOn dir) hfair
    ⟨working_of_process (run_base_trace exec time) hprocess hstop,
      Option.isSome_iff_ne_none.1 hprocess⟩

end Answers

/-! ## What is written is read -/

/-- The lines in the first so many bytes of the file have been read. -/
def ReadUpTo (target : ℕ) (core : Core) : Prop :=
  target ≤ core.shared.bridge.commandOffset ∧ inBody core.io = []

/-- The IO thread's way to its next read. -/
def untilGetline : IoPc → ℕ
  | .getline false | .exiting | .exited => 0
  | .opening => 1
  | .testStop => 2
  | .start | .sleep => 3
  | .pumpTx => 4
  | .getline true => 5
  | .body _ _ _ => 6

/-- Each read takes a byte at least. -/
def untilRead (target : ℕ) (core : Core) : ℕ :=
  8 * (target - core.shared.bridge.commandOffset) + untilGetline core.io

/-- The IO thread is in its loop, no stop is requested, and so many bytes are there. -/
structure Pumping (target : ℕ) (core : Core) : Prop where
  stop : core.shared.stop.stop = false
  thread : .io ∈ core.shared.threads
  exiting : core.io ≠ .exiting ∧ core.io ≠ .exited
  written : target ≤ core.shared.commandsIn.length

/-- The files the threads open do open. -/
def FilesOpen (_ : Core) (label : Thread × World) : Prop :=
  label.1 ≠ .main → label.2.opened = true

section Reads

variable {world : World} {core next : Core} {events : List Event} {target : ℕ}

/-- A step of the IO thread brings the target closer. -/
theorem Pumping.io {shared : Shared} {pc : IoPc} (hpumping : Pumping target core)
    (hinitialized : core.shared.bridge.initialized = true) (hopened : world.opened = true)
    (hbehind : ¬ ReadUpTo target core)
    (hstep : ioStep world core.shared core.io = some (shared, pc, events)) :
    Pumping target { core with shared := shared, io := pc } ∧
      untilRead target { core with shared := shared, io := pc } < untilRead target core := by
  obtain ⟨hstop, hthread, hexiting, hwritten⟩ := hpumping
  cases hpc : core.io with
  | getline atEnd =>
      cases atEnd with
      | true =>
          simp only [hpc, ioStep] at hstep
          cases hstep
          exact ⟨⟨hstop, hthread, by simp, hwritten⟩, by simp [untilRead, untilGetline, hpc]⟩
      | false =>
          have hless : core.shared.bridge.commandOffset < target := by
            by_contra hnot
            exact hbehind ⟨by omega, by rw [hpc]; rfl⟩
          have hmore : core.shared.commandsIn.drop core.shared.bridge.commandOffset ≠ [] := by
            intro hnil
            have hend := List.drop_eq_nil_iff.1 hnil
            omega
          simp only [hpc, ioStep, getline, if_neg hmore] at hstep
          cases hstep
          refine ⟨⟨hstop, hthread, by simp, hwritten⟩, ?_⟩
          simp only [untilRead, untilGetline, hpc]
          omega
  | body offset line atEnd =>
      simp only [hpc, ioStep] at hstep
      split at hstep <;> cases hstep <;> refine ⟨⟨hstop, hthread, by simp, hwritten⟩, ?_⟩ <;>
        cases atEnd <;> simp [untilRead, untilGetline, hpc]
  | exiting => exact absurd hpc hexiting.1
  | exited => exact absurd hpc hexiting.2
  | _ =>
      simp only [hpc, ioStep, hstop, hinitialized, hopened, Bool.and_true, if_true,
        Bool.false_eq_true, if_false] at hstep
      cases hstep
      exact ⟨⟨hstop, hthread, by simp, hwritten⟩, by simp [untilRead, untilGetline, hpc]⟩

/-- The others leave it as far away as it was. -/
theorem Pumping.other {thread : Thread} (hpumping : Pumping target core) (hboot : Boot core)
    (hmoves : Moves world core thread next events) (hother : thread ≠ .io)
    (hstop : next.shared.stop.stop = false) :
    Pumping target next ∧ untilRead target next = untilRead target core := by
  obtain ⟨hio, hoffset⟩ := HeldUp.io_of_moves hmoves hother
  have hcan : CanMove core .io := ⟨hpumping.thread, hpumping.exiting.2⟩
  refine ⟨⟨hstop, (hcan.moves hboot hother hmoves).1, hio ▸ hpumping.exiting, ?_⟩, ?_⟩
  · rcases commandsIn_of_moves hmoves.path with ⟨-, happend⟩ | hsame
    · rw [happend, List.length_append]
      exact hpumping.written.trans (Nat.le_add_right _ _)
    · rw [hsame]
      exact hpumping.written
  · rw [untilRead, untilRead, hio, hoffset]

theorem Pumping.moves {label : Thread × World} (hpumping : Pumping target core)
    (hboot : Boot core) (hopen : FilesOpen core label) (hbehind : ¬ ReadUpTo target core)
    (hstep : step core label = some (next, events)) (hstop : next.shared.stop.stop = false) :
    Pumping target next ∧ untilRead target next ≤ untilRead target core ∧
      (label.1 = .io → untilRead target next < untilRead target core) := by
  by_cases hio : label.1 = .io
  · obtain ⟨thread, world⟩ := label
    obtain rfl : thread = .io := hio
    have hthread := hpumping.thread
    simp only [step, if_pos hthread] at hstep
    obtain ⟨⟨shared, pc, later⟩, hmove, heq⟩ := Option.map_eq_some_iff.1 hstep
    cases heq
    obtain ⟨hnext, hlt⟩ := hpumping.io (hboot.initialized (hboot.broughtUp hthread))
      (hopen (by simp)) hbehind hmove
    exact ⟨hnext, hlt.le, fun _ => hlt⟩
  · obtain ⟨hnext, hsame⟩ := hpumping.other hboot (moves_of_step hstep) hio hstop
    exact ⟨hnext, hsame.le, fun h => absurd h hio⟩

theorem leaves_of_ioStep {shared after : Shared} {pc last : IoPc}
    (hstep : ioStep world shared pc = some (after, last, events))
    (hlast : last = .exiting ∨ last = .exited) :
    pc = .testStop ∧ shared.stop.stop = true ∨ pc = .exiting := by
  cases pc with
  | testStop =>
      simp only [ioStep] at hstep
      split at hstep
      · exact .inl ⟨rfl, by assumption⟩
      · cases hstep
        simp at hlast
  | exiting => exact .inr rfl
  | exited => cases hstep
  | opening | body offset line atEnd =>
      simp only [ioStep] at hstep
      split at hstep <;> cases hstep <;> simp at hlast
  | getline atEnd =>
      cases atEnd with
      | true =>
          cases hstep
          simp at hlast
      | false =>
          simp only [ioStep] at hstep
          split at hstep <;> cases hstep <;> simp at hlast
  | _ =>
      cases hstep
      simp at hlast

/-- The IO thread leaves its loop only for the stop flag. -/
theorem stop_of_io_exiting {allowed : Core → Thread × World → Prop} {trace : List Event}
    (hrun : Run system allowed (powerOn dir) trace core)
    (hexiting : core.io = .exiting ∨ core.io = .exited) : core.shared.stop.stop = true := by
  refine hrun.invariant (fun _ core => core.io = .exiting ∨ core.io = .exited →
    core.shared.stop.stop = true) (fun h => by rcases h with h | h <;> cases h) ?_ hexiting
  intro trace core label next events _ hinv _ hstep hexiting
  have hmono := EStopRun.stop_mono (moves_of_step hstep)
  by_cases hio : label.1 = .io
  · obtain ⟨thread, world⟩ := label
    obtain rfl : thread = .io := hio
    simp only [system, step] at hstep
    split at hstep
    · obtain ⟨⟨shared, pc, later⟩, hmove, heq⟩ := Option.map_eq_some_iff.1 hstep
      cases heq
      rcases leaves_of_ioStep hmove hexiting with ⟨-, hstop⟩ | hbefore
      · exact hmono hstop
      · exact hmono (hinv (.inl hbefore))
    · cases hstep
  · rw [(HeldUp.io_of_moves (moves_of_step hstep) hio).1] at hexiting
    exact hmono (hinv hexiting)

theorem pumping_of_started {allowed : Core → Thread × World → Prop} {trace : List Event}
    (hrun : Run system allowed (powerOn dir) trace core) (hio : .io ∈ core.main.started)
    (hstop : core.shared.stop.stop = false) (hwritten : target ≤ core.shared.commandsIn.length) :
    Pumping target core := by
  have hboot := Boot.run hrun
  have hexiting : ¬ (core.io = .exiting ∨ core.io = .exited) := fun h => by
    have hset := stop_of_io_exiting hrun h
    rw [hstop] at hset
    cases hset
  refine ⟨hstop, ?_, not_or.1 hexiting, hwritten⟩
  rw [hboot.threads]
  exact mem_running hio fun hjoined =>
    hexiting (.inr (hboot.finished .io (hboot.joined .io hjoined)))

end Reads

/-! ## Runs in which the clients and the files do their part -/

/-- The clients append whole lines, and the threads can open their files. -/
def Served (core : Core) (label : Thread × World) : Prop :=
  WholeLines core label ∧ FilesOpen core label

instance (core : Core) (label : Thread × World) : Decidable (Served core label) :=
  inferInstanceAs (Decidable (_ ∧ (_ → _)))

theorem served_default (core : Core) (thread : Thread) : Served core (thread, {}) :=
  ⟨fun _ => .inr (.inl rfl), fun _ => rfl⟩

/-- No thread needs anything else. -/
theorem enabled_served {core : Core} {thread : Thread}
    (henabled : Enabled system Prod.fst core thread) :
    Enabled (restrict system Served) Prod.fst core thread := by
  obtain ⟨⟨thread, world⟩, result, rfl, hstep⟩ := henabled
  obtain ⟨other, hother⟩ := exists_default_step hstep
  exact ⟨(thread, {}), other, rfl, step_restrict_iff.2 ⟨served_default core thread, hother⟩⟩

/-- The core has given up: a stop is requested, or `run` has refused to come up. -/
def GivenUp (core : Core) : Prop :=
  core.shared.stop.stop = true ∨ core.main = .returned 2

section Served

variable {exec : Execution (guarded (restrict system Served) (locking cfg)) (idle (powerOn dir))}

theorem run_served (time : ℕ) :
    Run system Served (powerOn dir) (exec.trace time) (exec.state time).base :=
  (run_of_restrict (run_base (exec.run_trace time))).mono fun _ _ => And.left

theorem disciplined_served (hflush : cfg.flushAlways = false) :
    Disciplined (restrict system Served) (locking cfg) Boot :=
  (disciplined hflush).restrict fun _ _ => enabled_served

theorem fair_unrestrict (hfair : StronglyFair exec Prod.fst) :
    StronglyFair (unrestrict exec) Prod.fst :=
  StronglyFair.unrestrict hfair fun _ _ => enabled_served

theorem exists_readUpTo (hflush : cfg.flushAlways = false) (hfair : StronglyFair exec Prod.fst)
    {target time : ℕ} (hwritten : target ≤ (exec.state time).base.shared.commandsIn.length) :
    ∃ later, time ≤ later ∧
      (GivenUp (exec.state later).base ∨ ReadUpTo target (exec.state later).base) := by
  obtain ⟨started, hle, hstarted⟩ := exists_started hflush (fair_unrestrict hfair) time
  change Started (exec.state started).base.main at hstarted
  rcases hstarted with hrefused | hio
  · exact ⟨started, hle, .inl (.inr hrefused)⟩
  have hwritten : target ≤ (exec.state started).base.shared.commandsIn.length :=
    hwritten.trans (commandsIn_mono (unrestrict exec) hle)
  by_cases hstop : (exec.state started).base.shared.stop.stop = true
  · exact ⟨started, hle, .inl (.inl hstop)⟩
  by_cases hread : ReadUpTo target (exec.state started).base
  · exact ⟨started, hle, .inr hread⟩
  have happroaches : Approaches exec (fun thread => thread = .io)
      (fun core => Pumping target core ∧ ¬ ReadUpTo target core)
      (fun core => core.shared.stop.stop = true ∨ ReadUpTo target core)
      (untilRead target) started := {
    able := fun moment _ hwithin => ⟨.io, rfl,
      (script_ne_nil_iff cfg (single_around (Or.inl hflush))).2
        ⟨hwithin.1.thread, hwithin.1.exiting.2⟩⟩
    closer := by
      rintro moment _ ⟨hpumping, hbehind⟩ hstep
      obtain ⟨hserved, hstep⟩ := step_restrict_iff.1 hstep
      by_cases hgoal : (exec.state (moment + 1)).base.shared.stop.stop = true ∨
          ReadUpTo target (exec.state (moment + 1)).base
      · exact .inl hgoal
      obtain ⟨hstop, hbehind'⟩ := not_or.1 hgoal
      obtain ⟨hnext, hcloser⟩ := hpumping.moves (Boot.run (run_served moment))
        hserved.2 hbehind hstep (Bool.eq_false_of_not_eq_true hstop)
      exact .inr ⟨⟨hnext, hbehind'⟩, hcloser⟩ }
  obtain ⟨later, hlater, hgoal⟩ := happroaches.exists_goal (disciplined_served hflush)
    (boot_powerOn dir) hfair ⟨pumping_of_started (run_served started) hio
      (Bool.eq_false_of_not_eq_true hstop) hwritten, hread⟩
  exact ⟨later, hle.trans hlater, hgoal.imp_left .inl⟩

theorem linesFrom_mono {time later : ℕ} (hle : time ≤ later) :
    linesFrom (exec.state time).base.shared.commandsIn 0 <+:
      linesFrom (exec.state later).base.shared.commandsIn 0 := by
  refine exec.until (fun state => linesFrom (exec.state time).base.shared.commandsIn 0 <+:
    linesFrom state.base.shared.commandsIn 0) hle (List.prefix_refl _) ?_
  intro moment _ _ hgrown
  rcases baseStep_or_same exec moment with hstep | hsame
  · obtain ⟨hserved, hstep⟩ := step_restrict_iff.1 hstep
    have hone : Run system WholeLines (exec.state moment).base (exec.events moment)
        (exec.state (moment + 1)).base := .single hserved.1 hstep
    exact hgrown.trans (linesFrom_grows (fun _ _ => id) hone)
  · rwa [hsame]

/-- Every line is read that is there now, and in its order. -/
theorem exists_linesRead (hflush : cfg.flushAlways = false) (hfair : StronglyFair exec Prod.fst)
    (time : ℕ) : ∃ later, time ≤ later ∧ (GivenUp (exec.state later).base ∨
      linesFrom (exec.state time).base.shared.commandsIn 0 <+:
        (doneLines (exec.trace later)).map Prod.snd) := by
  obtain ⟨later, hle, hread⟩ := exists_readUpTo hflush hfair
    (Nat.le_refl (exec.state time).base.shared.commandsIn.length)
  refine ⟨later, hle, hread.imp_right fun ⟨hoffset, hbody⟩ => ?_⟩
  obtain ⟨taken, hconsumed⟩ := Consumed.run (fun _ _ => And.left) (run_served later)
  have hlines := hconsumed.lines
  rw [hbody, List.append_nil] at hlines
  rw [hlines, map_snd_placed]
  exact segments_taken (linesFrom_mono hle) hconsumed.first (hconsumed.offset ▸ hoffset)

/-! ## What is accepted is published -/

theorem appendsSucceed_of_filesOpen {core : Core} {label : Thread × World}
    (hopen : FilesOpen core label) : AppendsSucceed core label := by
  intro nowNs left cmd result hcontrol _
  exact hopen (by rw [hcontrol]; simp)

/-- What was taken off the queue is published or in process. -/
theorem dequeued_eq (time : ℕ) :
    dequeuedCommands (exec.trace time) = publishedCommands (exec.trace time) ++
      (inProcess (exec.state time).base.control).toList :=
  Reconciled.run (fun _ _ hserved => appendsSucceed_of_filesOpen hserved.2) (run_served time)

/-- What is accepted is published, in process or queued, in this order. -/
theorem accepted_eq (time : ℕ) : (acceptedLines (exec.trace time)).map Prod.snd =
    publishedCommands (exec.trace time) ++ (inProcess (exec.state time).base.control).toList ++
      (exec.state time).base.shared.router.q := by
  rw [← dequeued_eq]
  exact Delivered.run (run_served time)

theorem length_accepted_mono {time later : ℕ} (hle : time ≤ later) :
    ((acceptedLines (exec.trace time)).map Prod.snd).length ≤
      ((acceptedLines (exec.trace later)).map Prod.snd).length :=
  (((exec.trace_mono hle).filterMap acceptedLine).map Prod.snd).length_le

/-- Then it has been published. -/
theorem exists_published_of_process (hflush : cfg.flushAlways = false)
    (hfair : StronglyFair exec Prod.fst)
    {time : ℕ}
    (hprocess : (inProcess (exec.state time).base.control).isSome)
    (hstop : (exec.state time).base.shared.stop.stop = false) :
    ∃ later, time ≤ later ∧ ((exec.state later).base.shared.stop.stop = true ∨
      (publishedCommands (exec.trace time)).length <
        (publishedCommands (exec.trace later)).length) := by
  obtain ⟨later, hle, hdone⟩ := exists_unprocessed hflush (fair_unrestrict hfair) hprocess hstop
  change _ ∨ inProcess (exec.state later).base.control = none at hdone
  refine ⟨later, hle, hdone.imp_right fun hnone => ?_⟩
  have hmore : (dequeuedCommands (exec.trace time)).length ≤
      (dequeuedCommands (exec.trace later)).length :=
    ((exec.trace_mono hle).filterMap dequeuedCommand).length_le
  obtain ⟨cmd, hsome⟩ := Option.isSome_iff_exists.1 hprocess
  rw [dequeued_eq time, dequeued_eq later, hsome, hnone] at hmore
  simp only [Option.toList_some, Option.toList_none, List.append_nil, List.length_append,
    List.length_singleton] at hmore
  omega

/-- As long as an accepted command is not published there is another one to come. -/
theorem exists_published (hflush : cfg.flushAlways = false) (hfair : StronglyFair exec Prod.fst)
    {time : ℕ}
    (hpending : (publishedCommands (exec.trace time)).length <
      ((acceptedLines (exec.trace time)).map Prod.snd).length) :
    ∃ later, time ≤ later ∧ ((exec.state later).base.shared.stop.stop = true ∨
      (publishedCommands (exec.trace time)).length <
        (publishedCommands (exec.trace later)).length) := by
  by_cases hstop : (exec.state time).base.shared.stop.stop = true
  · exact ⟨time, Nat.le_refl _, .inl hstop⟩
  have hclear := Bool.eq_false_of_not_eq_true hstop
  by_cases hprocess : (inProcess (exec.state time).base.control).isSome
  · exact exists_published_of_process hflush hfair hprocess hclear
  have hidle : inProcess (exec.state time).base.control = none := by simpa using hprocess
  have hqueue : (exec.state time).base.shared.router.q ≠ [] := by
    intro hnil
    rw [accepted_eq time, hidle, hnil] at hpending
    simp at hpending
  obtain ⟨taking, hle, hturn⟩ := exists_turn hflush (fair_unrestrict hfair)
    (working_of_queue (run_served time) hqueue hclear)
    (show (undecided (exec.state time).base.control).isSome = false from
      Bool.eq_false_of_not_eq_true fun h => hprocess (inProcess_of_undecided h)) (fun _ => hqueue)
  by_cases hstopped : (exec.state taking).base.shared.stop.stop = true
  · exact ⟨taking, hle, .inl hstopped⟩
  obtain ⟨later, hlater, hpublished⟩ := exists_published_of_process hflush hfair
    (inProcess_of_undecided (hturn.resolve_left hstopped)) (Bool.eq_false_of_not_eq_true hstopped)
  have hgrown : (publishedCommands (exec.trace time)).length ≤
      (publishedCommands (exec.trace taking)).length :=
    ((exec.trace_mono hle).filterMap publishedCommand).length_le
  exact ⟨later, hle.trans hlater, hpublished.imp_right hgrown.trans_lt⟩

/-- All commands accepted so far are published, in order, or the core is stopped before. -/
theorem exists_allPublished (hflush : cfg.flushAlways = false)
    (hfair : StronglyFair exec Prod.fst)
    (time : ℕ) :
    ∃ later, time ≤ later ∧ ((exec.state later).base.shared.stop.stop = true ∨
      (acceptedLines (exec.trace time)).map Prod.snd <+: publishedCommands (exec.trace later)) := by
  have henough : ∃ later, time ≤ later ∧ ((exec.state later).base.shared.stop.stop = true ∨
      ((acceptedLines (exec.trace time)).map Prod.snd).length ≤
        (publishedCommands (exec.trace later)).length) :=
    exists_le_of_grows fun moment hmoment hless =>
      exists_published hflush hfair (hless.trans_le (length_accepted_mono hmoment))
  obtain ⟨later, hle, hend⟩ := henough
  refine ⟨later, hle, hend.imp_right fun hcount => ?_⟩
  have hsame := ((exec.trace_mono hle).filterMap acceptedLine).map Prod.snd
  refine List.prefix_of_prefix_length_le hsame ?_ hcount
  change _ <+: (acceptedLines (exec.trace later)).map Prod.snd
  rw [accepted_eq later, List.append_assoc]
  exact List.prefix_append _ _

/-- In a fair run every line that stands in `commands.in` is read, in the order of the
file, and every command accepted up to then is published, in the order of acceptance,
unless a stop is requested or `run` has refused to come up. -/
theorem every_line_answered (cfg : Config) (dir : DataDir)
    (exec : Execution (guarded (restrict system Served) (locking cfg)) (idle (powerOn dir)))
    (hfair : StronglyFair exec Prod.fst) (hquiet : NeverFlushes (unrestrict exec)) (time : ℕ) :
    ∃ read later, time ≤ read ∧ read ≤ later ∧ (GivenUp (exec.state later).base ∨
      linesFrom (exec.state time).base.shared.commandsIn 0 <+:
          (doneLines (exec.trace read)).map Prod.snd ∧
        (acceptedLines (exec.trace read)).map Prod.snd <+:
          publishedCommands (exec.trace later)) := by
  obtain ⟨other, hother, hstate, hevents⟩ := exists_withoutFlush hfair hquiet
  have htrace : other.trace = exec.trace := funext fun time => by
    rw [Execution.trace, Execution.trace, hevents]
  obtain ⟨read, hread, hlines⟩ := exists_linesRead rfl hother time
  obtain ⟨later, hlater, hpublished⟩ := exists_allPublished rfl hother read
  rw [hstate, htrace] at hlines hpublished
  rcases hlines with hgiven | hlines
  · exact ⟨read, read, hread, Nat.le_refl _, .inl hgiven⟩
  · exact ⟨read, later, hread, hlater, hpublished.imp .inl fun h => ⟨hlines, h⟩⟩

end Served

/-- There are such runs, also with clients that write nothing more. -/
theorem exists_served {cfg : Config} (hflush : cfg.flushAlways = false) (dir : DataDir) :
    ∃ exec : Execution (guarded (restrict system Served) (locking cfg)) (idle (powerOn dir)),
      StronglyFair exec Prod.fst ∧ SilentFrom (unrestrict exec) 0 := by
  have henabled : ∀ core thread, Enabled (restrict system Served) Prod.fst core thread →
      Enabled (restrict (restrict system Served) Silent) Prod.fst core thread := by
    rintro core - ⟨⟨thread, world⟩, result, rfl, hstep⟩
    obtain ⟨other, hother⟩ := exists_default_step (step_restrict_iff.1 hstep).2
    exact ⟨(thread, {}), other, rfl, step_restrict_iff.2
      ⟨fun _ => rfl, step_restrict_iff.2 ⟨served_default core thread, hother⟩⟩⟩
  have hdisc := (disciplined_served hflush).restrict henabled
  have hpoised : Poised (locking cfg) Boot (idle (powerOn dir)) :=
    Poised.run hdisc (boot_powerOn dir) .start
  obtain ⟨exec, hfair⟩ := hpoised.exists_stronglyFair hdisc
    (fun core _ => (script_ne_nil_iff cfg (single_around (Or.inl hflush))).2
      (show CanMove core .client from trivial))
    [.main, .estop, .control, .sensor, .io, .persist, .client] fun thread => by
      cases thread <;> simp
  have hfile : ∀ time, (exec.state time).base.shared.commandsIn = dir.commandsIn := fun time =>
    commandsIn_of_silent (fun _ _ h => h.2.1)
      (run_of_restrict (run_of_restrict (run_base (exec.run_trace time))))
  exact ⟨unrestrict exec, StronglyFair.unrestrict hfair henabled,
    fun later _ => (hfile later).trans (hfile 0).symm⟩

/-- A single `GoTo`. -/
theorem every_line_answered_goTo :
    ∃ (exec : Execution (guarded (restrict system Served) (locking (unflushed mainConfig)))
        (idle (powerOn (freshDir (plainLine .goTo 1 ++ [newline]))))) (read later : ℕ),
      StronglyFair exec Prod.fst ∧ read ≤ later ∧ (GivenUp (exec.state later).base ∨
        [plainLine .goTo 1] <+: (doneLines (exec.trace read)).map Prod.snd ∧
          (acceptedLines (exec.trace read)).map Prod.snd <+:
            publishedCommands (exec.trace later)) := by
  obtain ⟨exec, hfair, -⟩ :=
    exists_served (show (unflushed mainConfig).flushAlways = false from rfl)
      (freshDir (plainLine .goTo 1 ++ [newline]))
  obtain ⟨read, later, -, hle, hanswered⟩ :=
    every_line_answered (unflushed mainConfig) _ exec hfair (.inl rfl) 0
  have hlines : linesFrom (exec.state 0).base.shared.commandsIn 0 = [plainLine .goTo 1] := by
    rw [exec.start]
    decide +kernel
  rw [hlines] at hanswered
  exact ⟨exec, read, later, hfair, hle, hanswered⟩

end ArcravenUgv.Answered
