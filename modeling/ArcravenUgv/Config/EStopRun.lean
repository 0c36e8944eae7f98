import ArcravenUgv.Config.Boot

/-!
# The drives at the end of a run

`safe_shutdown` samples the latch once, before it joins the threads, and the
E-STOP thread leaves its loop as soon as a stop is requested.  A latch set after
the sample is acted on only if the E-STOP thread stands between its two tests at
that moment.
-/

namespace ArcravenUgv.EStopRun

open ArcravenUgv.Enums
open ArcravenUgv.Command
open ArcravenUgv.Command.CommandRouter
open ArcravenUgv.Decimal
open ArcravenUgv.Handlers
open ArcravenUgv.Runs
open ArcravenUgv.Runtime

/-- A call of `drives_.estop()`. -/
def DrivesEstop : Event → Prop
  | .drivesEstop _ => True
  | _ => False

/-- Every latching up to some point was followed by a call of
`drives_.estop()`. -/
abbrev Stopped (trace : List Event) : Prop := Answered (· = .latched) DrivesEstop trace

/-- Whenever `run` returned, the drives had been stopped after every latching
before. -/
def EstopFollows (trace : List Event) : Prop :=
  ∀ before code after, trace = before ++ .runReturned code :: after → Stopped before

/-- `safe_shutdown` has sampled the latch, or `run` has returned without it. -/
def sampled : MainPc → Bool
  | .driveEstop _ | .driveDisable _ | .joining _ _ | .saveFinal _ | .finish _ => true
  | .returned _ => true
  | _ => false

/-- The next step of the control thread sets the latch. -/
def aboutToLatch (core : Core) : Bool :=
  match core.control with
  | .handling _ _ _ .triggerExchange => !core.shared.estop.latched
  | _ => false

/-- The latch is set before the main thread samples it or while the E-STOP
thread is about to test it. -/
def InTime (core : Core) (label : Thread × World) : Prop :=
  label.1 = .control → aboutToLatch core = true →
    sampled core.main = false ∨ core.estop = .testLatch

instance (core : Core) (label : Thread × World) : Decidable (InTime core label) :=
  inferInstanceAs (Decidable (_ → _ → _))

/-- Someone has still to act on the latch. -/
def Awaited (core : Core) : Prop :=
  core.shared.estop.latched = true ∧
    (sampled core.main = false ∨ (∃ code, core.main = .driveEstop code) ∨
      core.estop = .testLatch ∨ core.estop = .driveEstop)

/-! ## The latch and who has seen it -/

/-- Neither the latch nor the stop flag is ever reset. -/
theorem latched_mono {world : World} {core next : Core} {thread : Thread}
    {events : List Event} (hmoves : Moves world core thread next events)
    (hlatched : core.shared.estop.latched = true) : next.shared.estop.latched = true := by
  cases hmoves with
  | append => exact hlatched
  | main shared pc events hmoves | estop shared pc events hthread hmoves
  | sensor shared pc events hthread hmoves | io shared pc events hthread hmoves
  | persist shared pc events hthread hmoves => cases hmoves <;> exact hlatched
  | control shared pc events hthread hmoves =>
      cases hmoves with
      | handle nowNs left cmd before after shared events hpc hhandler =>
          cases hhandler <;> first | exact hlatched | rfl
      | _ => exact hlatched

theorem stop_mono {world : World} {core next : Core} {thread : Thread}
    {events : List Event} (hmoves : Moves world core thread next events)
    (hstop : core.shared.stop.stop = true) : next.shared.stop.stop = true := by
  cases hmoves with
  | append => exact hstop
  | main shared pc events hmoves => cases hmoves <;> first | exact hstop | rfl
  | estop shared pc events hthread hmoves => cases hmoves <;> first | exact hstop | rfl
  | sensor shared pc events hthread hmoves | io shared pc events hthread hmoves
  | persist shared pc events hthread hmoves => cases hmoves <;> exact hstop
  | control shared pc events hthread hmoves =>
      cases hmoves with
      | handle nowNs left cmd before after shared events hpc hhandler =>
          cases hhandler <;> first | exact hstop | rfl
      | _ => exact hstop

/-- The main thread has requested the stop itself. -/
def Stopping : MainPc → Prop
  | .sampleLatch _ | .driveEstop _ | .driveDisable _ | .joining _ _ | .saveFinal _ => True
  | .finish _ => True
  | .returned code => code = 0
  | _ => False

theorem stopping_of_sampled {core : Core} (hboot : Boot core)
    (hsampled : sampled core.main = true) : Stopping core.main ∨ core.main = .returned 2 := by
  have hlive := hboot.live
  cases hmain : core.main with
  | returned code =>
      rw [hmain] at hlive
      exact hlive.imp_right (congrArg MainPc.returned)
  | _ => simp_all [sampled, Stopping]

/-- What holds of the latch in every run. -/
structure Latch (trace : List Event) (core : Core) : Prop where
  stopped : Stopping core.main → core.shared.stop.stop = true
  early : core.control = .start → core.shared.estop.latched = false
  unmarked : core.shared.estop.latched = false → .latched ∉ trace
  sampledLatch : ∀ code, core.main = .driveEstop code → core.shared.estop.latched = true
  sawLatch : core.estop = .driveEstop ∨ core.estop = .requestStop →
    core.shared.estop.latched = true

theorem Latch.main {trace events : List Event} {core : Core} {shared : Shared} {pc : MainPc}
    (hboot : Boot core) (hlatch : Latch trace core)
    (hmoves : MainMoves core.shared core.main shared pc events) :
    Latch (trace ++ events) { core with shared := shared, main := pc } := by
  have hlive := hboot.live
  have hestop : shared.estop = core.shared.estop := by cases hmoves <;> rfl
  refine ⟨?_, ?_, ?_, ?_, ?_⟩
  · intro hstopping
    have hstopped := hlatch.stopped
    cases hmoves <;> simp_all [Stopping, MainPc.Live, Shared.saveState]
  · simpa [hestop] using hlatch.early
  · have hunmarked : .latched ∉ events := by cases hmoves <;> simp
    simpa [hestop, hunmarked] using hlatch.unmarked
  · intro code hpc
    rw [show shared.estop = core.shared.estop from hestop]
    cases hmoves <;> simp_all
  · simpa [hestop] using hlatch.sawLatch

theorem Latch.control {trace events : List Event} {world : World} {core : Core}
    {shared : Shared} {pc : ControlPc} (hlatch : Latch trace core)
    (hmoves : Moves world core .control { core with shared := shared, control := pc } events)
    (hcontrol : ControlMoves world core.shared core.control shared pc events) :
    Latch (trace ++ events) { core with shared := shared, control := pc } := by
  refine ⟨fun h => stop_mono hmoves (hlatch.stopped h), ?_, ?_,
    fun code h => latched_mono hmoves (hlatch.sampledLatch code h),
    fun h => latched_mono hmoves (hlatch.sawLatch h)⟩
  · intro hstart
    cases hcontrol <;> simp at hstart
  · intro hlatched
    have hbefore : core.shared.estop.latched = false := by
      by_contra hset
      have hstill := latched_mono hmoves (Bool.eq_true_of_not_eq_false hset)
      rw [hlatched] at hstill
      cases hstill
    rw [List.mem_append, not_or]
    refine ⟨hlatch.unmarked hbefore, ?_⟩
    cases hcontrol with
    | handle nowNs left cmd before after shared events hpc hhandler =>
        cases hhandler <;> simp at hlatched ⊢
    | _ => simp

theorem Latch.moves {trace events : List Event} {world : World} {core next : Core}
    {thread : Thread} (hboot : Boot core) (hlatch : Latch trace core)
    (hmoves : Moves world core thread next events) : Latch (trace ++ events) next := by
  have hmono := stop_mono hmoves
  cases hmoves with
  | main shared pc events hmain => exact hlatch.main hboot hmain
  | control shared pc events hthread hcontrol =>
      exact hlatch.control (.control _ _ _ hthread hcontrol) hcontrol
  | estop shared pc events hthread hmoves =>
      have hestop : shared.estop = core.shared.estop := by cases hmoves <;> rfl
      have hunmarked : .latched ∉ events := by cases hmoves <;> simp
      refine ⟨fun h => hmono (hlatch.stopped h), ?_, ?_, ?_, ?_⟩
      · simpa [hestop] using hlatch.early
      · simpa [hestop, hunmarked] using hlatch.unmarked
      · simpa [hestop] using hlatch.sampledLatch
      · intro hpc
        rw [show shared.estop = core.shared.estop from hestop]
        have hsaw := hlatch.sawLatch
        cases hmoves <;> simp_all
  | sensor shared pc events hthread hmoves | io shared pc events hthread hmoves
  | persist shared pc events hthread hmoves =>
      cases hmoves <;>
        exact ⟨hlatch.stopped, hlatch.early, by simpa [Shared.finish] using hlatch.unmarked,
          hlatch.sampledLatch, hlatch.sawLatch⟩
  | append =>
      exact ⟨hlatch.stopped, hlatch.early, by simpa using hlatch.unmarked,
        hlatch.sampledLatch, hlatch.sawLatch⟩

theorem Latch.run {allowed : Core → Thread × World → Prop} {dir : DataDir}
    {trace : List Event} {core : Core}
    (hrun : Run system allowed (powerOn dir) trace core) : Latch trace core := by
  refine hrun.invariant Latch ?_ ?_
  · exact ⟨False.elim, fun _ => rfl, fun _ => by simp, by simp [powerOn], by simp [powerOn]⟩
  · intro trace core label next events hrun hlatch _ hstep
    exact hlatch.moves (Boot.run hrun) (moves_of_step hstep)

/-! ## Latched in time -/

theorem EstopFollows.append {trace events : List Event} (hfollows : EstopFollows trace)
    (hevents : ∀ before code after, events = before ++ .runReturned code :: after →
      Stopped (trace ++ before)) : EstopFollows (trace ++ events) := by
  intro before code after hsplit
  rcases List.append_eq_append_iff.1 hsplit with
    ⟨between, rfl, hlater⟩ | ⟨between, htrace, hlater⟩
  · exact hevents between code after hlater
  · cases between with
    | nil =>
        rw [List.append_nil] at htrace
        rw [← htrace, ← List.append_nil trace]
        exact hevents [] code after hlater.symm
    | cons head rest =>
        rw [List.cons_append, List.cons.injEq] at hlater
        rw [← hlater.1] at htrace
        exact hfollows before code rest htrace

theorem EstopFollows.of_append {trace events : List Event}
    (hfollows : EstopFollows (trace ++ events)) : EstopFollows trace := by
  intro before code after hsplit
  exact hfollows before code (after ++ events) (by simp [hsplit])

theorem EstopFollows.append_quiet {trace events : List Event} (hfollows : EstopFollows trace)
    (hquiet : ∀ code, .runReturned code ∉ events) : EstopFollows (trace ++ events) :=
  hfollows.append fun _ code _ hsplit => absurd (by simp [hsplit]) (hquiet code)

/-- `run` returns after the drives were stopped. -/
theorem EstopFollows.append_return {trace : List Event} {code : ℕ}
    (hfollows : EstopFollows trace) (hstopped : Stopped trace) :
    EstopFollows (trace ++ [.runReturned code]) := by
  refine hfollows.append fun before code' after hsplit => ?_
  obtain ⟨rfl, -⟩ : before = [] ∧ _ := by
    cases before with
    | nil => exact ⟨rfl, trivial⟩
    | cons head rest => simp at hsplit
  rwa [List.append_nil]

/-- The promise is kept so far, and someone answers for an unanswered latch. -/
structure Kept (trace : List Event) (core : Core) : Prop where
  follows : EstopFollows trace
  owed : Stopped trace ∨ Awaited core

section Kept

variable {trace events : List Event} {world : World} {core : Core}

theorem Kept.step {next : Core} (hkept : Kept trace core) (hunmarked : .latched ∉ events)
    (hquiet : ∀ code, .runReturned code ∉ events)
    (hawaited : Awaited core → Stopped (trace ++ events) ∨ Awaited next) :
    Kept (trace ++ events) next where
  follows := hkept.follows.append_quiet hquiet
  owed := by
    rcases hkept.owed with hstopped | hwaiting
    · refine Or.inl (hstopped.append_quiet fun event hmem => ?_)
      rintro rfl
      exact hunmarked hmem
    · exact hawaited hwaiting

/-- A call of `drives_.estop()` settles everything. -/
theorem Kept.drivesEstop {next : Core} (hkept : Kept trace core) (thread : Thread) :
    Kept (trace ++ [.drivesEstop thread]) next where
  follows := hkept.follows.append_quiet (by simp)
  owed := Or.inl (answered_append_answer trivial (by simp) trace)

theorem Latch.stopped_of_clear (hlatch : Latch trace core)
    (hclear : core.shared.estop.latched = false) : Stopped trace :=
  answered_of_unmarked fun event hmem => by
    rintro rfl
    exact hlatch.unmarked hclear hmem

theorem Kept.main {shared : Shared} {pc : MainPc} (hboot : Boot core)
    (hlatch : Latch trace core) (hkept : Kept trace core)
    (hmoves : MainMoves core.shared core.main shared pc events) :
    Kept (trace ++ events) { core with shared := shared, main := pc } := by
  have hlive := hboot.live
  cases hmoves with
  | bringupFailed hpc =>
      have hidle : core.control = .start := hboot.idle .control (by simp [hpc, MainPc.started])
      have hstopped := hlatch.stopped_of_clear (hlatch.early hidle)
      exact ⟨hkept.follows.append_return hstopped,
        Or.inl (hstopped.append_quiet (by simp))⟩
  | calibrationFailed hpc => simp [hpc, MainPc.Live] at hlive
  | sampleLatched code hpc hlatched =>
      exact hkept.step (by simp) (by simp) fun h =>
        Or.inr ⟨h.1, Or.inr (Or.inl ⟨code, rfl⟩)⟩
  | sampleClear code hpc hlatched =>
      rw [List.append_nil]
      exact ⟨hkept.follows, Or.inl (hlatch.stopped_of_clear hlatched)⟩
  | driveEstop code hpc => exact hkept.drivesEstop _
  | finish code hpc =>
      have hstopped : Stopped trace := by
        rcases hkept.owed with hstopped | ⟨-, hwaiting⟩
        · exact hstopped
        · have hexited : core.estop = .exited := hboot.finished .estop
            (hboot.joined .estop (by simp [hpc, MainPc.joined, allThreads]))
          simp [hpc, hexited, sampled] at hwaiting
      exact ⟨hkept.follows.append_return hstopped,
        Or.inl (hstopped.append_quiet (by simp))⟩
  | _ =>
      refine hkept.step (by simp) (by simp) fun h => Or.inr ⟨h.1, ?_⟩
      have hwaiting := h.2
      simp_all [sampled]

theorem Kept.estop {shared : Shared} {pc : EStopPc} (hkept : Kept trace core)
    (hmoves : EStopMoves core.shared core.estop shared pc events) :
    Kept (trace ++ events) { core with shared := shared, estop := pc } := by
  cases hmoves with
  | sawLatch hpc hlatched =>
      exact hkept.step (by simp) (by simp) fun h =>
        Or.inr ⟨h.1, Or.inr (Or.inr (Or.inr rfl))⟩
  | sawClear hpc hlatched =>
      exact hkept.step (by simp) (by simp) fun h => by simp [Awaited, hlatched] at h
  | driveEstop hpc => exact hkept.drivesEstop _
  | _ =>
      refine hkept.step (by simp) (by simp) fun h => Or.inr ⟨h.1, ?_⟩
      have hwaiting := h.2
      simp_all

theorem Kept.control {shared : Shared} {pc : ControlPc} (hkept : Kept trace core)
    (hallowed : InTime core (.control, world))
    (hmoves : ControlMoves world core.shared core.control shared pc events) :
    Kept (trace ++ events) { core with shared := shared, control := pc } := by
  cases hmoves with
  | handle nowNs left cmd before after shared events hpc hhandler =>
      cases hhandler with
      | latch hbefore hlatched =>
          refine ⟨hkept.follows.append_quiet (by simp), Or.inr ⟨rfl, ?_⟩⟩
          rcases hallowed rfl (by simp [aboutToLatch, hpc, hbefore, hlatched]) with
            hmain | hestop
          · exact Or.inl hmain
          · exact Or.inr (Or.inr (Or.inl hestop))
      | _ => exact hkept.step (by simp) (by simp) fun h => Or.inr h
  | _ => exact hkept.step (by simp) (by simp) fun h => Or.inr h

theorem Kept.moves {label : Thread × World} {next : Core} (hboot : Boot core)
    (hlatch : Latch trace core) (hkept : Kept trace core) (hallowed : InTime core label)
    (hmoves : Moves label.2 core label.1 next events) : Kept (trace ++ events) next := by
  obtain ⟨thread, world⟩ := label
  cases hmoves with
  | main shared pc events hmoves => exact hkept.main hboot hlatch hmoves
  | estop shared pc events hthread hmoves => exact hkept.estop hmoves
  | control shared pc events hthread hmoves => exact hkept.control hallowed hmoves
  | sensor shared pc events hthread hmoves | io shared pc events hthread hmoves
  | persist shared pc events hthread hmoves =>
      cases hmoves <;> exact hkept.step (by simp) (by simp) Or.inr
  | append => exact hkept.step (by simp) (by simp) Or.inr

end Kept

theorem Kept.run {dir : DataDir} {trace : List Event} {core : Core}
    (hrun : Run system InTime (powerOn dir) trace core) : Kept trace core := by
  refine hrun.invariant Kept ?_ ?_
  · exact ⟨fun before code after hsplit => by simp at hsplit, Or.inl trivial⟩
  · intro trace core label next events hrun hkept hallowed hstep
    exact hkept.moves (Boot.run hrun) (Latch.run hrun) hallowed (moves_of_step hstep)

/-! ## Latched too late -/

/-- The latch was set when nobody was going to look at it any more. -/
structure Late (trace : List Event) (core : Core) : Prop where
  latched : .latched ∈ trace
  noneAfter : NoneAfter (· = .latched) DrivesEstop trace
  stop : core.shared.stop.stop = true
  sampledClear : sampled core.main = true ∧ ∀ code, core.main ≠ .driveEstop code
  passed : core.estop ≠ .testLatch ∧ core.estop ≠ .driveEstop
  missed : ∀ code, core.main = .returned code → ¬ EstopFollows trace

section Late

variable {trace events : List Event} {world : World} {core : Core}

theorem Late.not_stopped (hlate : Late trace core) : ¬ Stopped trace :=
  not_answered_of_noneAfter rfl hlate.latched hlate.noneAfter

/-- A step that neither stops the drives nor moves the main and E-STOP
threads. -/
theorem Late.quiet {next : Core} (hlate : Late trace core)
    (hquiet : ∀ event ∈ events, ¬ DrivesEstop event)
    (hstop : next.shared.stop.stop = true) (hmain : next.main = core.main)
    (hestop : next.estop = core.estop) : Late (trace ++ events) next where
  latched := List.mem_append_left _ hlate.latched
  noneAfter := hlate.noneAfter.append_quiet hquiet
  stop := hstop
  sampledClear := hmain ▸ hlate.sampledClear
  passed := hestop ▸ hlate.passed
  missed := fun code h hfollows => hlate.missed code (hmain ▸ h) hfollows.of_append

theorem Late.main {shared : Shared} {pc : MainPc} (hlate : Late trace core)
    (hstop : shared.stop.stop = true)
    (hmoves : MainMoves core.shared core.main shared pc events) :
    Late (trace ++ events) { core with shared := shared, main := pc } := by
  obtain ⟨hsampled, hclear⟩ := hlate.sampledClear
  have hquiet : ∀ event ∈ events, ¬ DrivesEstop event := by
    cases hmoves with
    | driveEstop code hpc => exact absurd hpc (hclear code)
    | _ => simp [DrivesEstop]
  refine ⟨List.mem_append_left _ hlate.latched, hlate.noneAfter.append_quiet hquiet, hstop,
    ?_, hlate.passed, ?_⟩
  · cases hmoves <;> simp_all [sampled]
  · intro code hcode hfollows
    cases hmoves with
    | finish code' hpc => exact hlate.not_stopped (hfollows trace code' [] rfl)
    | _ => simp_all [sampled]

theorem Late.estop {shared : Shared} {pc : EStopPc} (hlate : Late trace core)
    (hstop : shared.stop.stop = true)
    (hmoves : EStopMoves core.shared core.estop shared pc events) :
    Late (trace ++ events) { core with shared := shared, estop := pc } := by
  obtain ⟨htest, hdrive⟩ := hlate.passed
  have hset := hlate.stop
  refine ⟨List.mem_append_left _ hlate.latched, hlate.noneAfter.append_quiet ?_, hstop,
    hlate.sampledClear, ?_, fun code h hfollows => hlate.missed code h hfollows.of_append⟩
  · cases hmoves <;> simp_all [DrivesEstop]
  · cases hmoves <;> simp_all

theorem Late.moves {next : Core} {thread : Thread} (hlate : Late trace core)
    (hmoves : Moves world core thread next events) : Late (trace ++ events) next := by
  have hstop := stop_mono hmoves hlate.stop
  cases hmoves with
  | main shared pc events hmoves => exact hlate.main hstop hmoves
  | estop shared pc events hthread hmoves => exact hlate.estop hstop hmoves
  | control shared pc events hthread hmoves =>
      refine hlate.quiet ?_ hstop rfl rfl
      cases hmoves with
      | handle nowNs left cmd before after shared events hpc hhandler =>
          cases hhandler <;> simp [DrivesEstop]
      | _ => simp [DrivesEstop]
  | sensor shared pc events hthread hmoves | io shared pc events hthread hmoves
  | persist shared pc events hthread hmoves =>
      cases hmoves <;> exact hlate.quiet (by simp [DrivesEstop]) hstop rfl rfl
  | append => exact hlate.quiet (by simp) hstop rfl rfl

/-- A latching that is not in time is too late. -/
theorem Late.begins {label : Thread × World} {next : Core} (hboot : Boot core)
    (hlatch : Latch trace core) (hviolated : ¬ InTime core label)
    (hmoves : Moves label.2 core label.1 next events) : Late (trace ++ events) next := by
  obtain ⟨thread, world⟩ := label
  simp only [InTime, Classical.not_imp, not_or, Bool.not_eq_false] at hviolated
  obtain ⟨rfl, habout, hsampled, htest⟩ := hviolated
  obtain ⟨nowNs, left, cmd, hcontrol, hclear⟩ : ∃ nowNs left cmd,
      core.control = .handling nowNs left cmd .triggerExchange ∧
        core.shared.estop.latched = false := by
    unfold aboutToLatch at habout
    split at habout
    · exact ⟨_, _, _, ‹_›, by simpa using habout⟩
    · cases habout
  have hrunning : ∀ code, core.main ≠ .returned code := by
    intro code hmain
    by_cases hcode : code = 0
    · have hexited : core.control = .exited := hboot.finished .control
        (hboot.joined .control (by simp [hmain, hcode, MainPc.joined, allThreads, runtimeThreads]))
      simp [hcontrol] at hexited
    · have hidle : core.control = .start :=
        hboot.idle .control (by simp [hmain, hcode, MainPc.started])
      simp [hcontrol] at hidle
  have hstop := hlatch.stopped
    ((stopping_of_sampled hboot hsampled).resolve_right (hrunning 2))
  cases hmoves with
  | control shared pc events hthread hmoves =>
      cases hmoves with
      | handle nowNs' left' cmd' before after shared events hpc hhandler =>
          obtain rfl : before = .triggerExchange := by
            rw [hcontrol] at hpc
            exact (ControlPc.handling.inj hpc).2.2.2.symm
          cases hhandler with
          | latch hbefore hlatched =>
              refine ⟨by simp, ?_, hstop, ⟨hsampled, fun code hmain => ?_⟩,
                ⟨htest, fun hestop => ?_⟩, fun code hmain => absurd hmain (hrunning code)⟩
              · refine NoneAfter.append_unmarked (fun event hmem => ?_)
                  (List.pairwise_singleton _ _)
                rintro rfl
                exact hlatch.unmarked hclear hmem
              · simp [hlatch.sampledLatch code hmain] at hclear
              · simp [hlatch.sawLatch (Or.inl hestop)] at hclear
          | latchedBefore hbefore hlatched => simp [hclear] at hlatched
          | _ => simp_all
      | _ => simp_all

end Late

/-- Every run is in time throughout or has been too late once. -/
theorem inTime_or_late {dir : DataDir} {trace : List Event} {core : Core}
    (hrun : Run system always (powerOn dir) trace core) :
    Run system InTime (powerOn dir) trace core ∨ Late trace core := by
  refine hrun.invariant
    (fun trace core => Run system InTime (powerOn dir) trace core ∨ Late trace core)
    (Or.inl .start) ?_
  intro trace core label next events hrun hcases _ hstep
  rcases hcases with hintime | hlate
  · by_cases hallowed : InTime core label
    · exact Or.inl (.step hintime hallowed hstep)
    · exact Or.inr (Late.begins (Boot.run hrun) (Latch.run hrun) hallowed (moves_of_step hstep))
  · exact Or.inr (hlate.moves (moves_of_step hstep))

/-- If every latching is in time, the drives are stopped after it before `run`
returns; and a run that has returned keeps that promise only if every latching
in it was in time. -/
theorem estopFollows_iff_inTime (dir : DataDir) (trace : List Event) (core : Core)
    (hrun : Run system always (powerOn dir) trace core) :
    (Run system InTime (powerOn dir) trace core → EstopFollows trace) ∧
      (∀ code, core.main = .returned code →
        (EstopFollows trace ↔ Run system InTime (powerOn dir) trace core)) := by
  refine ⟨fun hintime => (Kept.run hintime).follows, fun code hreturned =>
    ⟨fun hfollows => ?_, fun hintime => (Kept.run hintime).follows⟩⟩
  rcases inTime_or_late hrun with hintime | hlate
  · exact hintime
  · exact absurd hfollows (hlate.missed code hreturned)

private def stopNow (id : UInt64) : CommandEnvelope := plainCommand .emergencyStop id

private def shutDown : CommandEnvelope := plainCommand .shutdown 1

/-- What the core does from the emergency stop to its report. -/
private def latching (id : UInt64) : List Event :=
  [.dequeued (stopNow id) 0, .handlerCalled (stopNow id), .latched, .stopRequested .control] ++
    reported (stopNow id) estopLatched

private def singleStop : DataDir := freshDir (ascii "C|1|700|0|0|0|0|0|AA==\n")

private def inTimeTrace : List Event :=
  [submitted 0 "C|1|700|0|0|0|0|0|AA==" (stopNow 1), .stored coldState] ++ latching 1 ++
    [.stopRequested .main, .drivesEstop .main, .runReturned 0]

private def lateTrace : List Event :=
  [submitted 0 "C|1|704|0|0|0|0|0|AA==" shutDown,
    submitted 23 "C|2|700|0|0|0|0|0|AA==" (stopNow 2), .stored coldState,
    .dequeued shutDown 0, .handlerCalled shutDown, .stopRequested .control] ++
    reported shutDown shutdownRequested ++ [.stopRequested .main] ++ latching 2 ++
    [.runReturned 0]

/-- The exits of all threads and the last steps of `run`. -/
private def exits : List (Thread × World) :=
  times 3 .estop ++ times 3 .sensor ++ times 5 .io ++ times 3 .persist ++ times 9 .main

/-- A single emergency stop: the main thread samples the latch after it. -/
theorem estopFollows_single_emergencyStop :
    ∃ core, Run system InTime (powerOn singleStop) inTimeTrace core ∧
      EstopFollows inTimeTrace := by
  obtain ⟨core, hrun⟩ := exists_run_of_trace system InTime (powerOn singleStop)
    (bootSchedule ++ times 3 .estop ++ times 5 .io ++ times 16 .control ++ times 3 .main ++ exits)
    (show _ = some inTimeTrace by decide +kernel)
  exact ⟨core, hrun, (estopFollows_iff_inTime _ _ core hrun.unrestricted).1 hrun⟩

/-- A shutdown and an emergency stop in one batch, the latch sampled between
them: `run` returns and the drives were only disabled. -/
theorem estop_missed_after_shutdown :
    ∃ (dir : DataDir) (trace : List Event) (core : Core),
      Run system always (powerOn dir) trace core ∧ ¬ EstopFollows trace := by
  obtain ⟨core, hrun⟩ := exists_run_of_trace system always
    (powerOn (freshDir
      (ascii "C|1|704|0|0|0|0|0|AA==\nC|2|700|0|0|0|0|0|AA==\n")))
    (bootSchedule ++ times 3 .estop ++ times 7 .io ++ times 10 .control ++ times 3 .main ++
      times 12 .control ++ exits)
    (show _ = some lateTrace by decide +kernel)
  refine ⟨_, _, core, hrun, fun hfollows => ?_⟩
  have hstopped : Stopped (lateTrace.take 12 ++ .latched :: .stopRequested .control ::
      reported (stopNow 2) estopLatched) := hfollows _ 0 [] rfl
  obtain ⟨reply, hreply, hestop⟩ := hstopped.exists_answer rfl
  simp only [reported, List.mem_cons, List.not_mem_nil, or_false] at hreply
  rcases hreply with rfl | rfl | rfl | rfl <;> exact hestop

end ArcravenUgv.EStopRun
