import ArcravenUgv.Lib.MutexFair

/-!
# Goals reached in fair runs

A goal that some agents always work towards, and that nobody sets back, is
reached.  How far it is away is a number read off the state; the mutexes the
agents lock on the way do not count.
-/

namespace ArcravenUgv.Mutex

open ArcravenUgv.Runs
open ArcravenUgv.Fair

variable {State Label Event Agent Lock : Type*} [DecidableEq Agent] [DecidableEq Lock]
variable {sys : System State Label Event} {locking : Locking State Label Agent Lock}
variable {inv : State → Prop} {first : State}

/-- With the mutexes taken away, a run is one of the system. -/
theorem run_base {trace : List Event} {start state : Guarded State Agent Lock}
    (hrun : Run (guarded sys locking) always start trace state) :
    Run sys always start.base trace state.base := by
  induction hrun with
  | start => exact .start
  | step hrun _ hstep ih =>
      cases guardedMoves_of_step hstep with
      | act rest base events htodo hbase => exact .step ih trivial hbase
      | _ => simpa using ih

section Goal

variable (exec : Execution (guarded sys locking) (idle first))

/-- The step at this time is one of the system. -/
def BaseStep (time : ℕ) : Prop :=
  sys.step (exec.state time).base (exec.label time) =
    some ((exec.state (time + 1)).base, exec.events time)

theorem baseStep_or_same (time : ℕ) :
    BaseStep exec time ∨ (exec.state (time + 1)).base = (exec.state time).base := by
  rcases (guardedMoves_of_step (exec.step time)).todo_self with
    ⟨-, hsame, -⟩ | ⟨instr, -, hsame, -⟩ | ⟨-, hstep⟩
  · exact .inr hsame
  · exact .inr hsame
  · exact .inl hstep

/-- From a time on and until the goal is reached, one of the agents that work
towards it can move, their steps bring it closer, and no step moves it further
away. -/
structure Approaches (works : Agent → Prop) (within goal : State → Prop)
    (distance : State → ℕ) (time : ℕ) : Prop where
  able : ∀ moment, time ≤ moment → within (exec.state moment).base →
    ∃ agent, works agent ∧ locking.script (exec.state moment).base agent ≠ []
  closer : ∀ moment, time ≤ moment → within (exec.state moment).base → BaseStep exec moment →
    goal (exec.state (moment + 1)).base ∨
      within (exec.state (moment + 1)).base ∧
        distance (exec.state (moment + 1)).base ≤ distance (exec.state moment).base ∧
          (works (locking.agent (exec.label moment)) →
            distance (exec.state (moment + 1)).base < distance (exec.state moment).base)

variable {exec} {works : Agent → Prop} {within goal : State → Prop} {distance : State → ℕ}
variable {time : ℕ}

/-- Until the goal is reached nobody moves it further away. -/
theorem Approaches.until_goal (happroaches : Approaches exec works within goal distance time)
    {moment later : ℕ} (hmoment : time ≤ moment) (hle : moment ≤ later)
    (hwithin : within (exec.state moment).base) :
    (∃ reached, moment ≤ reached ∧ goal (exec.state reached).base) ∨
      within (exec.state later).base ∧
        distance (exec.state later).base ≤ distance (exec.state moment).base := by
  induction later, hle using Nat.le_induction with
  | base => exact .inr ⟨hwithin, Nat.le_refl _⟩
  | succ later hle ih =>
      rcases ih with hgoal | ⟨hstill, hnear⟩
      · exact .inl hgoal
      · rcases baseStep_or_same exec later with hstep | hsame
        · rcases happroaches.closer later (hmoment.trans hle) hstill hstep with
            hgoal | ⟨hnext, hcloser, -⟩
          · exact .inl ⟨later + 1, by omega, hgoal⟩
          · exact .inr ⟨hnext, hcloser.trans hnear⟩
        · rw [hsame]
          exact .inr ⟨hstill, hnear⟩

omit [DecidableEq Agent] in
/-- An agent with a script keeps it until it takes its step. -/
theorem Disciplined.awaits (hdisc : Disciplined sys locking inv) (agent : Agent) :
    Awaits sys locking inv agent fun state => locking.script state agent ≠ [] where
  able := fun _ _ => id
  stable := fun _ _ _ _ hinv hscript hother hstep =>
    hdisc.stable _ _ _ _ agent hinv hscript hother hstep

/-- In a fair run the goal is reached. -/
theorem Approaches.exists_goal (happroaches : Approaches exec works within goal distance time)
    (hdisc : Disciplined sys locking inv) (hfirst : inv first)
    (hfair : StronglyFair exec locking.agent) (hwithin : within (exec.state time).base) :
    ∃ later, time ≤ later ∧ goal (exec.state later).base := by
  suffices hnear : ∀ moment, time ≤ moment → within (exec.state moment).base →
      ∃ later, moment ≤ later ∧ goal (exec.state later).base from hnear time (Nat.le_refl _) hwithin
  intro moment hmoment hwithin
  induction hdistance : distance (exec.state moment).base using Nat.strong_induction_on
    generalizing moment with
  | _ far ih =>
      obtain ⟨agent, hworks, hscript⟩ := happroaches.able moment hmoment hwithin
      obtain ⟨later, hle, hagent, -, hstep⟩ :=
        takesStep hdisc hfirst hfair (hdisc.awaits agent) hscript
      rcases happroaches.until_goal hmoment hle hwithin with hgoal | ⟨hstill, hnear⟩
      · exact hgoal
      rcases happroaches.closer later (hmoment.trans hle) hstill hstep with
        hgoal | ⟨hnext, -, hcloser⟩
      · exact ⟨later + 1, by omega, hgoal⟩
      · have hlt := hcloser (hagent.symm ▸ hworks)
        obtain ⟨last, hlast, hgoal⟩ := ih _ (by omega) (later + 1) (by omega) hnext rfl
        exact ⟨last, by omega, hgoal⟩

end Goal

/-! ## Other scripts -/

section Rescript

variable {other : Locking State Label Agent Lock}

/-- An infinite run with scripts that are the same wherever it comes. -/
def rescript {start : Guarded State Agent Lock} (exec : Execution (guarded sys locking) start)
    (hagent : other.agent = locking.agent)
    (hscript : ∀ time agent, other.script (exec.state time).base agent =
      locking.script (exec.state time).base agent) : Execution (guarded sys other) start where
  state := exec.state
  label := exec.label
  events := exec.events
  start := exec.start
  step := fun time => by
    rw [← exec.step time]
    simp only [guarded, guardedStep, hagent, hscript]

theorem StronglyFair.rescript {start : Guarded State Agent Lock}
    {exec : Execution (guarded sys locking) start} (hfair : StronglyFair exec locking.agent)
    (hagent : other.agent = locking.agent)
    (hscript : ∀ time agent, other.script (exec.state time).base agent =
      locking.script (exec.state time).base agent) :
    StronglyFair (rescript exec hagent hscript) other.agent := by
  have hsame : ∀ time agent,
      Enabled (guarded sys other) other.agent (exec.state time) agent ↔
        Enabled (guarded sys locking) locking.agent (exec.state time) agent := by
    intro time agent
    simp only [Enabled, guarded, guardedStep, hagent, hscript]
  intro agent henabled time
  obtain ⟨later, hle, hmoves⟩ := hfair agent (fun time => by
    obtain ⟨later, hle, hready⟩ := henabled time
    exact ⟨later, hle, (hsame later agent).1 hready⟩) time
  exact ⟨later, hle, hagent ▸ hmoves⟩

end Rescript

/-! ## Fewer steps -/

section Restrict

variable {allowed : State → Label → Prop} [∀ state label, Decidable (allowed state label)]

/-- The system with these steps only. -/
def restrict (sys : System State Label Event) (allowed : State → Label → Prop)
    [∀ state label, Decidable (allowed state label)] : System State Label Event where
  step := fun state label => if allowed state label then sys.step state label else none

theorem step_restrict_iff {state : State} {label : Label} {result : State × List Event} :
    (restrict sys allowed).step state label = some result ↔
      allowed state label ∧ sys.step state label = some result := by
  simp only [restrict]
  split_ifs with hallowed <;> simp [hallowed]

theorem run_restrict {trace : List Event} {state : State}
    (hrun : Run sys allowed first trace state) :
    Run (restrict sys allowed) always first trace state := by
  induction hrun with
  | start => exact .start
  | step _ hallowed hstep ih => exact .step ih trivial (step_restrict_iff.2 ⟨hallowed, hstep⟩)

theorem run_of_restrict {other : State → Label → Prop} {trace : List Event} {state : State}
    (hrun : Run (restrict sys allowed) other first trace state) :
    Run sys (fun state label => allowed state label ∧ other state label) first trace state := by
  induction hrun with
  | start => exact .start
  | step _ hother hstep ih =>
      obtain ⟨hallowed, hstep⟩ := step_restrict_iff.1 hstep
      exact .step ih ⟨hallowed, hother⟩ hstep

omit [DecidableEq Agent] in
/-- Agents that are still able to take their steps. -/
theorem Disciplined.restrict (hdisc : Disciplined sys locking inv)
    (henabled : ∀ state agent, Enabled sys locking.agent state agent →
      Enabled (restrict sys allowed) locking.agent state agent) :
    Disciplined (restrict sys allowed) locking inv where
  labelled := hdisc.labelled
  leaf := hdisc.leaf
  once := hdisc.once
  acts := hdisc.acts
  keep := fun _ _ _ _ hinv hstep => hdisc.keep _ _ _ _ hinv (step_restrict_iff.1 hstep).2
  enabled := fun state agent hinv hscript => henabled _ _ (hdisc.enabled state agent hinv hscript)
  stable := fun _ _ _ _ _ hinv hscript hother hstep =>
    hdisc.stable _ _ _ _ _ hinv hscript hother (step_restrict_iff.1 hstep).2

variable {start : Guarded State Agent Lock}

theorem guardedStep_of_restrict {state next : Guarded State Agent Lock} {label : Label}
    {events : List Event}
    (hstep : (guarded (restrict sys allowed) locking).step state label = some (next, events)) :
    (guarded sys locking).step state label = some (next, events) := by
  cases guardedMoves_of_step hstep with
  | load htodo hscript => exact step_of_guardedMoves (.load htodo hscript)
  | lock mutex rest htodo hfree => exact step_of_guardedMoves (.lock mutex rest htodo hfree)
  | unlock mutex rest htodo => exact step_of_guardedMoves (.unlock mutex rest htodo)
  | act rest base events htodo hbase =>
      exact step_of_guardedMoves (.act rest base events htodo (step_restrict_iff.1 hbase).2)

/-- An infinite run that takes these steps only. -/
def unrestrict (exec : Execution (guarded (restrict sys allowed) locking) start) :
    Execution (guarded sys locking) start where
  state := exec.state
  label := exec.label
  events := exec.events
  start := exec.start
  step := fun time => guardedStep_of_restrict (exec.step time)

theorem StronglyFair.unrestrict
    {exec : Execution (guarded (restrict sys allowed) locking) start}
    (hfair : StronglyFair exec locking.agent)
    (henabled : ∀ state agent, Enabled sys locking.agent state agent →
      Enabled (restrict sys allowed) locking.agent state agent) :
    StronglyFair (unrestrict exec) locking.agent := by
  intro agent hagain time
  refine hfair agent (fun time => ?_) time
  obtain ⟨later, hle, label, ⟨next, events⟩, hagent, hstep⟩ := hagain time
  subst hagent
  refine ⟨later, hle, ?_⟩
  cases guardedMoves_of_step hstep with
  | load htodo hscript => exact ⟨label, _, rfl, step_of_guardedMoves (.load htodo hscript)⟩
  | lock mutex rest htodo hfree =>
      exact ⟨label, _, rfl, step_of_guardedMoves (.lock mutex rest htodo hfree)⟩
  | unlock mutex rest htodo =>
      exact ⟨label, _, rfl, step_of_guardedMoves (.unlock mutex rest htodo)⟩
  | act rest base events htodo hbase =>
      obtain ⟨other, ⟨base', events'⟩, hother, hbase'⟩ :=
        henabled _ _ ⟨label, _, rfl, hbase⟩
      rw [← hother] at htodo
      exact ⟨other, _, hother, step_of_guardedMoves (.act rest base' events' htodo hbase')⟩

end Restrict

end ArcravenUgv.Mutex
