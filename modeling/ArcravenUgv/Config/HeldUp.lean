import ArcravenUgv.Config.Terminates

/-!
# A client that holds up the shutdown

`pump_rx` reads `commands.in` until there is no further line and does not look at
the stop flag.  From wherever the IO thread is reading, a client that goes on
appending lines can keep it there, and `run` waits for the thread.
-/

namespace ArcravenUgv.HeldUp

open ArcravenUgv.Command
open ArcravenUgv.Decimal
open ArcravenUgv.Delimited
open ArcravenUgv.CommandLine
open ArcravenUgv.Bridge
open ArcravenUgv.Runs
open ArcravenUgv.Fair
open ArcravenUgv.Mutex
open ArcravenUgv.Logger
open ArcravenUgv.Runtime
open ArcravenUgv.Locks
open ArcravenUgv.SelfLock
open ArcravenUgv.Terminates

/-! ## Runs in which the client feeds the IO thread -/

/-- A line that is terminated has not been read. -/
def LineAhead (core : Core) : Prop :=
  newline ∈ core.shared.commandsIn.drop core.shared.bridge.commandOffset

instance (core : Core) : Decidable (LineAhead core) := inferInstanceAs (Decidable (_ ∈ _))

/-- The IO thread calls `getline`. -/
def AtGetline : IoPc → Prop
  | .getline _ => True
  | _ => False

instance (pc : IoPc) : Decidable (AtGetline pc) := by
  unfold AtGetline
  split <;> infer_instance

/-- The client appends empty lines, and the IO thread reads only what is
terminated. -/
def Fed (core : Core) (label : Thread × World) : Prop :=
  (label.1 = .client → label.2.chunk = [newline]) ∧
    (label.1 = .io → label.2.opened = true ∧ (AtGetline core.io → LineAhead core))

instance (core : Core) (label : Thread × World) : Decidable (Fed core label) :=
  inferInstanceAs (Decidable (_ ∧ _))

/-- The IO thread is in the loop of `pump_rx` and has not come to the end of the
file. -/
def Reading : IoPc → Prop
  | .opening | .getline false | .body _ _ false => True
  | _ => False

theorem getline_of_mem {file : Bytes} {position : ℕ} (hmem : newline ∈ file.drop position) :
    ∃ line, getline file position = some (line, false) := by
  have hne : file.drop position ≠ [] := List.ne_nil_of_mem hmem
  have hshort :
      (nextSegment newline (file.drop position)).length ≠ (file.drop position).length := by
    intro hlength
    have hprefix : nextSegment newline (file.drop position) <+: file.drop position :=
      List.takeWhile_prefix _
    rw [← hprefix.eq_of_length hlength] at hmem
    exact not_mem_nextSegment _ hmem
  exact ⟨nextSegment newline (file.drop position), by simpa [getline, hne] using hshort⟩

section Feeding

variable {cfg : Config} {core next : Core} {label : Thread × World} {events : List Event}

/-- The IO thread starts nothing while it has no line to read. -/
def feeding (cfg : Config) : Locking Core (Thread × World) Thread Mu where
  agent := Prod.fst
  script := fun core thread =>
    if thread = .io ∧ AtGetline core.io ∧ ¬ LineAhead core then []
    else (locking cfg).script core thread

theorem script_of_feeding {thread : Thread} (hscript : (feeding cfg).script core thread ≠ []) :
    (feeding cfg).script core thread = (locking cfg).script core thread ∧
      (thread = .io → AtGetline core.io → LineAhead core) := by
  simp only [feeding] at hscript ⊢
  split_ifs at hscript ⊢ with hblocked
  · exact absurd rfl hscript
  · exact ⟨rfl, fun hio hgetline => by_contra fun hnone => hblocked ⟨hio, hgetline, hnone⟩⟩

theorem feeding_of_ne {thread : Thread} (hio : thread ≠ .io) :
    (feeding cfg).script core thread = (locking cfg).script core thread := by
  simp [feeding, hio]

/-- Other threads leave the IO thread and what it has ahead alone. -/
theorem io_of_moves {world : World} {thread : Thread}
    (hmoves : Moves world core thread next events) (hio : thread ≠ .io) :
    next.io = core.io ∧
      next.shared.bridge.commandOffset = core.shared.bridge.commandOffset := by
  cases hmoves.path with
  | control shared pc events hthread hmoves =>
      cases hmoves with
      | handle nowNs left cmd before after shared events hpc hhandler =>
          cases hhandler <;> exact ⟨rfl, rfl⟩
      | _ => exact ⟨rfl, rfl⟩
  | io shared pc events hthread hmoves => exact absurd rfl hio
  | append => exact ⟨rfl, rfl⟩
  | aside thread next events haside => exact ⟨haside.io, haside.commandOffset⟩

theorem LineAhead.moves {world : World} {thread : Thread} (hahead : LineAhead core)
    (hmoves : Moves world core thread next events) (hio : thread ≠ .io) : LineAhead next := by
  rw [LineAhead, (io_of_moves hmoves hio).2]
  rcases ReadLines.commandsIn_of_moves hmoves.path with ⟨-, happend⟩ | hsame
  · rw [happend, List.drop_append]
    exact List.mem_append_left _ hahead
  · rwa [hsame]

/-- The IO thread stays in its loop. -/
theorem Reading.fed (hreading : Reading core.io) (hboot : Boot core) (hfed : Fed core label)
    (hstep : step core label = some (next, events)) : Reading next.io := by
  by_cases hio : label.1 = .io
  · obtain ⟨thread, world⟩ := label
    obtain rfl : thread = .io := hio
    obtain ⟨hopened, hahead⟩ := hfed.2 rfl
    change world.opened = true at hopened
    simp only [step] at hstep
    split at hstep
    · rename_i hthread
      obtain ⟨⟨shared, pc, later⟩, hmove, heq⟩ := Option.map_eq_some_iff.1 hstep
      cases heq
      have hinitialized := hboot.initialized (hboot.broughtUp hthread)
      cases hpc : core.io with
      | opening =>
          simp only [hpc, ioStep, hinitialized, hopened, Bool.and_true, if_true] at hmove
          cases hmove
          trivial
      | getline atEnd =>
          rw [hpc] at hreading hahead
          cases atEnd with
          | true => exact hreading.elim
          | false =>
              obtain ⟨line, hline⟩ := getline_of_mem (hahead trivial)
              simp only [hpc, ioStep, hline] at hmove
              cases hmove
              trivial
      | body offset line atEnd =>
          rw [hpc] at hreading
          cases atEnd with
          | true => exact hreading.elim
          | false =>
              simp only [hpc, ioStep] at hmove
              split at hmove <;> cases hmove <;> trivial
      | _ =>
          rw [hpc] at hreading
          exact hreading.elim
    · cases hstep
  · rwa [(io_of_moves (moves_of_step hstep) hio).1]

theorem Reading.canMove (hreading : Reading core.io) (hboot : Boot core) : CanMove core .io := by
  have hstarted : core.io ≠ .start := fun h => by simp [h, Reading] at hreading
  have hbusy : core.io ≠ .exited := fun h => by simp [h, Reading] at hreading
  exact ⟨hboot.mem_threads hstarted hbusy, hbusy⟩

theorem disciplined_feeding (hflush : cfg.flushAlways = false) :
    Disciplined (restrict system Fed) (feeding cfg) fun core => Boot core ∧ Reading core.io where
  labelled := fun thread => ⟨(thread, {}), rfl⟩
  leaf := fun core thread => by
    simp only [feeding]
    split_ifs
    · rfl
    · exact (disciplined hflush).leaf core thread
  once := fun core thread => by
    simp only [feeding]
    split_ifs
    · simp
    · exact (disciplined hflush).once core thread
  acts := fun core thread hscript => by
    have hsame := (script_of_feeding hscript).1
    rw [hsame] at hscript ⊢
    exact (disciplined hflush).acts core thread hscript
  keep := fun core label next events hinv hstep => by
    obtain ⟨hfed, hstep⟩ := step_restrict_iff.1 hstep
    exact ⟨hinv.1.moves (moves_of_step hstep), hinv.2.fed hinv.1 hfed hstep⟩
  enabled := fun core thread hinv hscript => by
    obtain ⟨hsame, hahead⟩ := script_of_feeding hscript
    rw [hsame, script_ne_nil_iff cfg (single_around (Or.inl hflush)),
      ← isSome_step_iff core thread { chunk := [newline] }] at hscript
    obtain ⟨result, hresult⟩ := Option.isSome_iff_exists.1 hscript
    exact ⟨(thread, { chunk := [newline] }), result, rfl,
      step_restrict_iff.2 ⟨⟨fun _ => rfl, fun hio => ⟨rfl, hahead hio⟩⟩, hresult⟩⟩
  stable := fun core label next events thread hinv hscript hother hstep => by
    obtain ⟨-, hstep⟩ := step_restrict_iff.1 hstep
    obtain ⟨hsame, hahead⟩ := script_of_feeding hscript
    rw [hsame] at hscript
    have hnext := (disciplined hflush).stable core label next events thread hinv.1 hscript hother
      hstep
    by_cases hio : thread = .io
    · subst hio
      have hmoves := moves_of_step hstep
      have hblocked : ¬ (AtGetline next.io ∧ ¬ LineAhead next) := by
        rw [(io_of_moves hmoves hother).1]
        exact fun hstuck => hstuck.2 ((hahead rfl hstuck.1).moves hmoves hother)
      simpa [feeding, hblocked] using hnext
    · rwa [feeding_of_ne hio]

end Feeding

/-! ## The IO thread is never done -/

section HeldUp

variable {cfg : Config} {core : Core}
variable {exec : Execution (guarded (restrict system Fed) (feeding cfg)) (idle core)}

theorem step_of_fed {state next : Guarded Core Thread Mu} {label : Thread × World}
    {events : List Event}
    (hstep : (guarded (restrict system Fed) (feeding cfg)).step state label =
      some (next, events)) : (withLocks cfg).step state label = some (next, events) := by
  cases guardedMoves_of_step hstep with
  | load htodo hscript =>
      have hsame := (script_of_feeding hscript).1
      rw [hsame] at hscript ⊢
      exact step_of_guardedMoves (.load htodo hscript)
  | lock mutex rest htodo hfree => exact step_of_guardedMoves (.lock mutex rest htodo hfree)
  | unlock mutex rest htodo => exact step_of_guardedMoves (.unlock mutex rest htodo)
  | act rest base events htodo hbase =>
      exact step_of_guardedMoves (.act rest base events htodo (step_restrict_iff.1 hbase).2)

/-- An infinite run of this kind is one of the core. -/
def fedRun (exec : Execution (guarded (restrict system Fed) (feeding cfg)) (idle core)) :
    Execution (withLocks cfg) (idle core) where
  state := exec.state
  label := exec.label
  events := exec.events
  start := exec.start
  step := fun time => step_of_fed (exec.step time)

/-- A line is there, or the client's lines have not yet reached the place the IO
thread reads from. -/
theorem lineAhead_or_closer {world : World} {core next : Core} {events : List Event}
    (hmoves : Moves world core .client next events) (hchunk : world.chunk = [newline]) :
    LineAhead next ∨
      next.shared.bridge.commandOffset + 1 - next.shared.commandsIn.length <
        core.shared.bridge.commandOffset + 1 - core.shared.commandsIn.length := by
  cases hmoves with
  | append =>
      rcases Nat.lt_or_ge core.shared.commandsIn.length core.shared.bridge.commandOffset with
        hbeyond | hwithin
      · right
        simp only [hchunk, List.length_append, List.length_singleton]
        omega
      · left
        rw [LineAhead, hchunk, List.drop_append_of_le_length hwithin]
        exact List.mem_append_right _ List.mem_cons_self

/-- Sooner or later the IO thread has a line to read. -/
theorem exists_script (hflush : cfg.flushAlways = false) (hboot : Boot core)
    (hreading : Reading core.io) (hfair : StronglyFair exec Prod.fst) (time : ℕ) :
    ∃ later, time ≤ later ∧ (feeding cfg).script (exec.state later).base .io ≠ [] := by
  have hdisc := disciplined_feeding hflush
  have hinv : ∀ time, Boot (exec.state time).base ∧ Reading (exec.state time).base.io :=
    fun time => (poised_at hdisc ⟨hboot, hreading⟩ exec time).base
  have hable : ∀ time, (AtGetline (exec.state time).base.io → LineAhead (exec.state time).base) →
      (feeding cfg).script (exec.state time).base .io ≠ [] := by
    intro time hahead
    obtain ⟨hboot, hreading⟩ := hinv time
    have hblocked : ¬ (AtGetline (exec.state time).base.io ∧
        ¬ LineAhead (exec.state time).base) := fun hstuck => hstuck.2 (hahead hstuck.1)
    simpa [feeding, hblocked] using
      (script_ne_nil_iff cfg (single_around (Or.inl hflush))).2 (hreading.canMove hboot)
  by_cases hahead : AtGetline (exec.state time).base.io → LineAhead (exec.state time).base
  · exact ⟨time, Nat.le_refl _, hable time hahead⟩
  obtain ⟨hgetline, hnone⟩ := Classical.not_imp.1 hahead
  have happroaches : Approaches exec (fun thread => thread = .client)
      (fun core => AtGetline core.io ∧ ¬ LineAhead core) LineAhead
      (fun core => core.shared.bridge.commandOffset + 1 - core.shared.commandsIn.length) time := {
    able := fun moment _ _ => ⟨.client, rfl, by
      rw [feeding_of_ne (by simp), script_ne_nil_iff cfg (single_around (Or.inl hflush))]
      trivial⟩
    closer := by
      rintro moment _ ⟨hgetline, hnone⟩ hbase
      obtain ⟨hfed, hstep⟩ := step_restrict_iff.1 hbase
      have hmoves := moves_of_step hstep
      have hio : (exec.label moment).1 ≠ .io := fun hio => hnone ((hfed.2 hio).2 hgetline)
      obtain ⟨hpc, hoffset⟩ := io_of_moves hmoves hio
      by_cases hnext : LineAhead (exec.state (moment + 1)).base
      · exact .inl hnext
      refine .inr ⟨⟨by rwa [hpc], hnext⟩, ?_⟩
      by_cases hclient : (exec.label moment).1 = .client
      · rw [hclient] at hmoves
        have hlt := (lineAhead_or_closer hmoves (hfed.1 hclient)).resolve_left hnext
        exact ⟨hlt.le, fun _ => hlt⟩
      · have hsame := (ReadLines.commandsIn_of_moves hmoves.path).resolve_left
          fun h => hclient h.1
        rw [hoffset, hsame]
        exact ⟨Nat.le_refl _, fun h => absurd h hclient⟩ }
  obtain ⟨later, hle, hgoal⟩ :=
    happroaches.exists_goal hdisc ⟨hboot, hreading⟩ hfair ⟨hgetline, hnone⟩
  exact ⟨later, hle, hable later fun _ => hgoal⟩

/-- The IO thread moves again and again, and whoever could move in the core can
move here. -/
theorem stronglyFair_fedRun (hflush : cfg.flushAlways = false) (hboot : Boot core)
    (hreading : Reading core.io) (hfair : StronglyFair exec Prod.fst) :
    StronglyFair (fedRun exec) Prod.fst := by
  have hdisc := disciplined_feeding hflush
  intro thread henabled time
  by_cases hio : thread = .io
  · subst hio
    obtain ⟨later, hle, hscript⟩ := exists_script hflush hboot hreading hfair time
    obtain ⟨last, hlast, hagent, -, -⟩ :=
      takesStep hdisc ⟨hboot, hreading⟩ hfair (hdisc.awaits .io) hscript
    exact ⟨last, by omega, hagent⟩
  · refine hfair thread (fun time => ?_) time
    obtain ⟨later, hle, label, ⟨next, events⟩, rfl, hstep⟩ := henabled time
    refine ⟨later, hle, ?_⟩
    cases guardedMoves_of_step hstep with
    | load htodo hscript =>
        have hfed : (feeding cfg).script (exec.state later).base label.1 ≠ [] := by
          rw [feeding_of_ne hio]
          exact hscript
        exact ⟨label, _, rfl, step_of_guardedMoves (.load htodo hfed)⟩
    | lock mutex rest htodo hfree =>
        exact ⟨label, _, rfl, step_of_guardedMoves (.lock mutex rest htodo hfree)⟩
    | unlock mutex rest htodo =>
        exact ⟨label, _, rfl, step_of_guardedMoves (.unlock mutex rest htodo)⟩
    | act rest base events htodo hbase =>
        have hmove : (step (exec.state later).base (label.1, { chunk := [newline] })).isSome := by
          rw [isSome_step_iff, ← isSome_step_iff _ label.1 label.2]
          exact Option.isSome_iff_exists.2 ⟨_, hbase⟩
        obtain ⟨⟨base', events'⟩, hbase'⟩ := Option.isSome_iff_exists.1 hmove
        exact ⟨(label.1, { chunk := [newline] }), _, rfl, step_of_guardedMoves
          (.act rest base' events' htodo
            (step_restrict_iff.2 ⟨⟨fun _ => rfl, fun h => absurd h hio⟩, hbase'⟩))⟩

theorem commandsIn_of_client {world : World} {core next : Core} {events : List Event}
    (hmoves : Moves world core .client next events) :
    next.shared.commandsIn = core.shared.commandsIn ++ world.chunk := by
  cases hmoves
  rfl

/-- The client appends a line again and again. -/
theorem exists_append (hflush : cfg.flushAlways = false) (hboot : Boot core)
    (hreading : Reading core.io) (hfair : StronglyFair exec Prod.fst) (time : ℕ) :
    ∃ later, time ≤ later ∧ (exec.state (later + 1)).base.shared.commandsIn =
      (exec.state later).base.shared.commandsIn ++ [newline] := by
  have hdisc := disciplined_feeding hflush
  have hscript : (feeding cfg).script (exec.state time).base .client ≠ [] := by
    rw [feeding_of_ne (by simp), script_ne_nil_iff cfg (single_around (Or.inl hflush))]
    trivial
  obtain ⟨later, hle, hclient, -, hbase⟩ :=
    takesStep hdisc ⟨hboot, hreading⟩ hfair (hdisc.awaits .client) hscript
  obtain ⟨hfed, hstep⟩ := step_restrict_iff.1 hbase
  have hmoves := moves_of_step hstep
  rw [show (exec.label later).1 = .client from hclient] at hmoves
  exact ⟨later, hle, by rw [commandsIn_of_client hmoves, hfed.1 hclient]⟩

end HeldUp

/-- Where fatal messages are not flushed: from every state in which the IO thread is
reading, a client that goes on appending lines can keep `run` from returning though
the stop is requested and every thread gets its turns. -/
theorem client_holds_up_run (cfg : Config) (hflush : cfg.flushAlways = false) (dir : DataDir)
    (trace : List Event) (core : Core) (hrun : Run system always (powerOn dir) trace core)
    (hreading : Reading core.io) (hstop : core.shared.stop.stop = true) :
    ∃ exec : Execution (withLocks cfg) (idle (powerOn dir)), StronglyFair exec Prod.fst ∧
      (∀ time, ∃ later, time ≤ later ∧ (exec.state (later + 1)).base.shared.commandsIn =
        (exec.state later).base.shared.commandsIn ++ [newline]) ∧
      ∃ since, (exec.state since).base = core ∧ ∀ time, since ≤ time →
        (exec.state time).base.shared.stop.stop = true ∧
          ∀ code, (exec.state time).base.main ≠ .returned code := by
  have hboot := Boot.run hrun
  have hdisc := disciplined_feeding hflush
  have hpoised : Poised (feeding cfg) (fun core => Boot core ∧ Reading core.io)
      (idle core : Guarded Core Thread Mu) := Poised.run hdisc ⟨hboot, hreading⟩ .start
  have hclient : ∀ base : Core, (feeding cfg).script base .client ≠ [] := fun base => by
    rw [feeding_of_ne (by simp), script_ne_nil_iff cfg (single_around (Or.inl hflush))]
    trivial
  obtain ⟨fed, hfed⟩ := hpoised.exists_stronglyFair hdisc (fun base _ => hclient base)
    [.main, .estop, .control, .sensor, .io, .persist, .client] fun thread => by
      cases thread <;> simp
  have hfair := stronglyFair_fedRun hflush hboot hreading hfed
  have hlift : Run (withLocks cfg) always (idle (powerOn dir)) trace (idle core) :=
    lift_run (fun _ _ _ _ hstep => single_of_step hflush hstep) hrun
  obtain ⟨exec, hexec, -, since, hshift⟩ := hfair.extend hlift
  have hsince : (exec.state since).base = core := by
    have hstart := (hshift 0).1
    rw [Nat.zero_add, (fedRun fed).start] at hstart
    rw [hstart]
    rfl
  refine ⟨exec, hexec, fun time => ?_, since, hsince, fun time hle => ⟨?_, fun code hcode => ?_⟩⟩
  · obtain ⟨later, hle, happend⟩ := exists_append hflush hboot hreading hfed time
    refine ⟨later + since, by omega, ?_⟩
    rw [(hshift later).1, show later + since + 1 = later + 1 + since by omega,
      (hshift (later + 1)).1]
    exact happend
  · exact stop_later hle (by rw [hsince]; exact hstop)
  · obtain ⟨later, rfl⟩ := Nat.exists_eq_add_of_le' hle
    rw [(hshift later).1] at hcode
    obtain ⟨hboot, hreading⟩ := (poised_at hdisc ⟨hboot, hreading⟩ fed later).base
    have hthread := (hreading.canMove hboot).1
    change (fed.state later).base.main = .returned code at hcode
    rw [hboot.threads, hcode] at hthread
    cases hthread

/-- A shutdown that has been read and carried out, with the IO thread at the end of
the file. -/
theorem client_holds_up_shutdown :
    ∃ exec : Execution (withLocks (unflushed mainConfig)) (idle (powerOn shutdownDir)),
      StronglyFair exec Prod.fst ∧
      (∀ time, ∃ later, time ≤ later ∧ (exec.state (later + 1)).base.shared.commandsIn =
        (exec.state later).base.shared.commandsIn ++ [newline]) ∧
      ∃ since, ∀ time, since ≤ time →
        (exec.state time).base.shared.stop.stop = true ∧
          ∀ code, (exec.state time).base.main ≠ .returned code := by
  obtain ⟨⟨core, trace⟩, hexecute, hview⟩ := Option.map_eq_some_iff.1
    (show (execute system always (powerOn shutdownDir)
        (bootSchedule ++ times 5 .io ++ times 7 .control)).map (fun result =>
          (result.1.io, result.1.shared.stop.stop)) = some (.getline false, true) by
      decide +kernel)
  obtain ⟨hio, hstop⟩ := Prod.mk.inj hview
  obtain ⟨exec, hfair, happends, since, -, hheld⟩ := client_holds_up_run (unflushed mainConfig) rfl
    shutdownDir trace core (run_of_execute hexecute) (by rw [hio]; trivial) hstop
  exact ⟨exec, hfair, happends, since, hheld⟩

end ArcravenUgv.HeldUp
