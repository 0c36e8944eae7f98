import ArcravenUgv.Lib.Fair
import ArcravenUgv.Lib.Mutex

/-!
# Progress with mutexes

If every script holds one mutex at a time and no step inside it can be refused,
then in a strongly fair run every agent that has a step to take takes it.
-/

namespace ArcravenUgv.Mutex

open Function
open ArcravenUgv.Runs
open ArcravenUgv.Fair

variable {State Label Event Agent Lock : Type*} [DecidableEq Agent] [DecidableEq Lock]

/-- Scripts that cannot get stuck: one mutex at a time, one step of the system in
each, and that step stays possible until it is taken. -/
structure Disciplined (sys : System State Label Event)
    (locking : Locking State Label Agent Lock) (inv : State → Prop) : Prop where
  labelled : ∀ agent, ∃ label, locking.agent label = agent
  leaf : ∀ base agent, Leaf (locking.script base agent)
  once : ∀ base agent, (locking.script base agent).count .act ≤ 1
  acts : ∀ base agent, locking.script base agent ≠ [] → .act ∈ locking.script base agent
  keep : ∀ base label next events, inv base → sys.step base label = some (next, events) →
    inv next
  enabled : ∀ base agent, inv base → locking.script base agent ≠ [] →
    Enabled sys locking.agent base agent
  stable : ∀ base label next events agent, inv base → locking.script base agent ≠ [] →
    locking.agent label ≠ agent → sys.step base label = some (next, events) →
      locking.script next agent ≠ []

/-- Whoever has a step of the system before it can take it. -/
structure Poised (locking : Locking State Label Agent Lock) (inv : State → Prop)
    (state : Guarded State Agent Lock) : Prop where
  base : inv state.base
  owned : Owned state
  once : ∀ agent, (state.todo agent).count .act ≤ 1
  ready : ∀ agent, .act ∈ state.todo agent → locking.script state.base agent ≠ []

/-- A condition under which an agent has a step to take, and which no other agent
ends. -/
structure Awaits (sys : System State Label Event) (locking : Locking State Label Agent Lock)
    (inv : State → Prop) (agent : Agent) (ready : State → Prop) : Prop where
  able : ∀ base, inv base → ready base → locking.script base agent ≠ []
  stable : ∀ base label next events, inv base → ready base → locking.agent label ≠ agent →
    sys.step base label = some (next, events) → ready next

section Progress

variable {sys : System State Label Event} {locking : Locking State Label Agent Lock}
variable {inv : State → Prop} {state next : Guarded State Agent Lock} {label : Label}
variable {events : List Event}

theorem Poised.moves (hpoised : Poised locking inv state) (hdisc : Disciplined sys locking inv)
    (hmoves : GuardedMoves sys locking state label next events) : Poised locking inv next where
  base := by
    cases hmoves with
    | act rest base events htodo hstep => exact hdisc.keep _ _ _ _ hpoised.base hstep
    | _ => exact hpoised.base
  owned := hpoised.owned.moves hdisc.leaf hmoves
  once := by
    intro agent
    by_cases hagent : locking.agent label = agent
    · subst hagent
      have honce := hpoised.once (locking.agent label)
      cases hmoves with
      | load htodo hscript => simpa using hdisc.once _ _
      | lock mutex rest htodo hfree => simpa [htodo] using honce
      | unlock mutex rest htodo => simpa [htodo] using honce
      | act rest base events htodo hstep =>
          simp only [htodo, List.count_cons_self] at honce
          simp only [update_self]
          omega
    · rw [hmoves.todo_other hagent]
      exact hpoised.once agent
  ready := by
    intro agent hact
    by_cases hagent : locking.agent label = agent
    · subst hagent
      have hready := hpoised.ready (locking.agent label)
      cases hmoves with
      | load htodo hscript => exact hscript
      | lock mutex rest htodo hfree => exact hready (by simp_all)
      | unlock mutex rest htodo => exact hready (by simp_all)
      | act rest base events htodo hstep =>
          have honce := hpoised.once (locking.agent label)
          simp only [htodo, List.count_cons_self] at honce
          have hnone : rest.count .act = 0 := by omega
          simp only [update_self] at hact
          exact absurd hact (List.count_eq_zero.1 hnone)
    · rw [hmoves.todo_other hagent] at hact
      have hready := hpoised.ready agent hact
      cases hmoves with
      | act rest base events htodo hstep =>
          exact hdisc.stable _ _ _ _ _ hpoised.base hready hagent hstep
      | _ => exact hready

theorem Poised.run {first : State} {trace : List Event} (hdisc : Disciplined sys locking inv)
    (hfirst : inv first)
    (hrun : Run (guarded sys locking) always (idle first) trace state) :
    Poised locking inv state := by
  refine hrun.invariant (fun _ state => Poised locking inv state)
    ⟨hfirst, owned_idle first, by simp [idle], by simp [idle]⟩ ?_
  intro trace state label next events _ hpoised _ hstep
  exact hpoised.moves hdisc (guardedMoves_of_step hstep)

/-- An agent that does not wait for a mutex can move. -/
theorem Poised.enabled (hpoised : Poised locking inv state)
    (hdisc : Disciplined sys locking inv) {agent : Agent}
    (hscript : state.todo agent = [] → locking.script state.base agent ≠ [])
    (hfree : ∀ mutex rest, state.todo agent = .lock mutex :: rest → state.owner mutex = none) :
    Enabled (guarded sys locking) locking.agent state agent := by
  obtain ⟨label, rfl⟩ := hdisc.labelled agent
  cases htodo : state.todo (locking.agent label) with
  | nil => exact ⟨label, _, rfl, step_of_guardedMoves (.load htodo (hscript htodo))⟩
  | cons instr rest =>
      cases instr with
      | lock mutex =>
          exact ⟨label, _, rfl,
            step_of_guardedMoves (.lock mutex rest htodo (hfree mutex rest htodo))⟩
      | unlock mutex => exact ⟨label, _, rfl, step_of_guardedMoves (.unlock mutex rest htodo)⟩
      | act =>
          have hready := hpoised.ready (locking.agent label) (by simp [htodo])
          obtain ⟨acting, ⟨base, events⟩, hagent, hstep⟩ :=
            hdisc.enabled _ _ hpoised.base hready
          rw [← hagent] at htodo
          exact ⟨acting, _, hagent, step_of_guardedMoves (.act rest base events htodo hstep)⟩

/-- Whoever holds a mutex can move. -/
theorem Poised.enabled_of_owner (hpoised : Poised locking inv state)
    (hdisc : Disciplined sys locking inv) {agent : Agent} {mutex : Lock}
    (howner : state.owner mutex = some agent) :
    Enabled (guarded sys locking) locking.agent state agent := by
  obtain ⟨held, hheld, hiff⟩ := hpoised.owned agent
  obtain rfl := (hiff mutex).1 howner
  refine hpoised.enabled hdisc ?_ ?_
  · intro hnil
    simp [hnil, heldAfter] at hheld
  · intro other rest hlock
    simp [hlock, heldAfter] at hheld

/-- Where one agent has a script, some agent can move: it, or whoever holds the
mutex it waits for. -/
theorem Poised.exists_enabled (hpoised : Poised locking inv state)
    (hdisc : Disciplined sys locking inv) {agent : Agent}
    (hscript : locking.script state.base agent ≠ []) :
    ∃ agent, Enabled (guarded sys locking) locking.agent state agent := by
  by_cases hheld : ∃ mutex holder, state.owner mutex = some holder
  · obtain ⟨mutex, holder, howner⟩ := hheld
    exact ⟨holder, hpoised.enabled_of_owner hdisc howner⟩
  · refine ⟨agent, hpoised.enabled hdisc (fun _ => hscript) fun mutex rest htodo => ?_⟩
    by_contra htaken
    exact hheld ⟨mutex, Option.ne_none_iff_exists'.1 htaken⟩

/-- Where one agent always has a script there is a fair run from each poised
state. -/
theorem Poised.exists_stronglyFair (hpoised : Poised locking inv state)
    (hdisc : Disciplined sys locking inv) {agent : Agent}
    (hscript : ∀ base, inv base → locking.script base agent ≠ [])
    (agents : List Agent) (hcomplete : ∀ agent, agent ∈ agents) :
    ∃ exec : Execution (guarded sys locking) state, StronglyFair exec locking.agent :=
  Fair.exists_stronglyFair hpoised
    (fun _ _ _ _ hpoised hstep => hpoised.moves hdisc (guardedMoves_of_step hstep))
    (fun _ hpoised => hpoised.exists_enabled hdisc (hscript _ hpoised.base)) agents hcomplete

variable {first : State} {exec : Execution (guarded sys locking) (idle first)}

theorem poised_at (hdisc : Disciplined sys locking inv) (hfirst : inv first)
    (exec : Execution (guarded sys locking) (idle first)) (time : ℕ) :
    Poised locking inv (exec.state time) := by
  obtain ⟨trace, hrun⟩ := exec.exists_run time
  exact Poised.run hdisc hfirst hrun

/-- While an agent does not move it stays where it is in its script and keeps
its mutexes. -/
theorem still_until (hdisc : Disciplined sys locking inv) (hfirst : inv first) {agent : Agent}
    {time later : ℕ} (hle : time ≤ later)
    (hstill : ∀ moment, time ≤ moment → moment < later →
      locking.agent (exec.label moment) ≠ agent) :
    (exec.state later).todo agent = (exec.state time).todo agent ∧
      ∀ mutex, (exec.state later).owner mutex = some agent ↔
        (exec.state time).owner mutex = some agent := by
  refine exec.until (fun state => state.todo agent = (exec.state time).todo agent ∧
    ∀ mutex, state.owner mutex = some agent ↔ (exec.state time).owner mutex = some agent)
    hle ⟨rfl, fun _ => Iff.rfl⟩ ?_
  rintro moment hmoment hlater ⟨htodo, howner⟩
  have hmoves := guardedMoves_of_step (exec.step moment)
  have hother := hstill moment hmoment hlater
  refine ⟨(hmoves.todo_other hother).trans htodo, fun mutex => ?_⟩
  rw [(poised_at hdisc hfirst exec moment).owned.owner_other hmoves hother mutex, howner mutex]

/-- Every mutex is free again and again. -/
theorem exists_free (hdisc : Disciplined sys locking inv) (hfirst : inv first)
    (hfair : StronglyFair exec locking.agent) (mutex : Lock) (time : ℕ) :
    ∃ later, time ≤ later ∧ (exec.state later).owner mutex = none := by
  cases howner : (exec.state time).owner mutex with
  | none => exact ⟨time, Nat.le_refl time, howner⟩
  | some agent =>
      induction hlength : ((exec.state time).todo agent).length using Nat.strong_induction_on
        generalizing time with
      | _ length ih =>
          obtain ⟨held, hheld, hiff⟩ := (poised_at hdisc hfirst exec time).owned agent
          obtain rfl := (hiff mutex).1 howner
          have hmove : ∃ later, FirstMove exec locking.agent agent time later := by
            refine hfair.exists_firstMove fun hnever moment hmoment => ?_
            have hkept := (still_until hdisc hfirst hmoment
              fun earlier hearlier _ => hnever earlier hearlier).2
            exact ⟨moment, Nat.le_refl _,
              (poised_at hdisc hfirst exec moment).enabled_of_owner hdisc
                ((hkept mutex).2 howner)⟩
          obtain ⟨later, hle, hagent, hstill⟩ := hmove
          obtain ⟨htodo, hkept⟩ := still_until hdisc hfirst hle hstill
          rw [← htodo] at hheld
          rcases unlocks_or_acts hagent hheld (guardedMoves_of_step (exec.step later)) with
            hfree | ⟨hact, hsame⟩
          · exact ⟨later + 1, by omega, hfree⟩
          · have hshorter : ((exec.state (later + 1)).todo agent).length < length := by
              rw [← hlength, ← htodo, hact]
              simp
            obtain ⟨last, hlast, hfree⟩ := ih _ hshorter (later + 1)
              (by rw [hsame]; exact (hkept mutex).2 howner) rfl
            exact ⟨last, by omega, hfree⟩

section Acts

variable {agent : Agent} {ready : State → Prop}

/-- What other agents leave alone holds until the agent takes its step. -/
theorem ready_until (hdisc : Disciplined sys locking inv) (hfirst : inv first)
    (hawaits : Awaits sys locking inv agent ready)
    {time later : ℕ} (hle : time ≤ later) (hready : ready (exec.state time).base)
    (hstill : ∀ moment, time ≤ moment → moment < later →
      locking.agent (exec.label moment) ≠ agent) : ready (exec.state later).base := by
  refine exec.until (fun state => ready state.base) hle hready ?_
  intro moment hmoment hlater hready
  have hother := hstill moment hmoment hlater
  have hbase := (poised_at hdisc hfirst exec moment).base
  rcases (guardedMoves_of_step (exec.step moment)).todo_self with
    ⟨-, hsame, -⟩ | ⟨instr, -, hsame, -⟩ | ⟨-, hstep⟩
  · rwa [hsame]
  · rwa [hsame]
  · exact hawaits.stable _ _ _ _ hbase hready hother hstep

/-- An agent that has a step to take moves. -/
theorem exists_move (hdisc : Disciplined sys locking inv) (hfirst : inv first)
    (hfair : StronglyFair exec locking.agent)
    (hawaits : Awaits sys locking inv agent ready)
    {time : ℕ} (hready : ready (exec.state time).base) :
    ∃ later, FirstMove exec locking.agent agent time later := by
  refine hfair.exists_firstMove fun hnever moment hmoment => ?_
  have hable' : ∀ later, time ≤ later →
      locking.script (exec.state later).base agent ≠ [] := fun later hlater =>
    hawaits.able _ (poised_at hdisc hfirst exec later).base
      (ready_until hdisc hfirst hawaits hlater hready fun earlier hearlier _ =>
        hnever earlier hearlier)
  cases htodo : (exec.state moment).todo agent with
  | cons instr rest =>
      cases instr with
      | lock mutex =>
          obtain ⟨later, hlater, hfree⟩ := exists_free hdisc hfirst hfair mutex moment
          have hsame := (still_until hdisc hfirst hlater fun earlier hearlier _ =>
            hnever earlier (Nat.le_trans hmoment hearlier)).1
          refine ⟨later, hlater, (poised_at hdisc hfirst exec later).enabled hdisc
            (fun _ => hable' later (Nat.le_trans hmoment hlater)) fun other rest hlock => ?_⟩
          rw [hsame, htodo] at hlock
          cases hlock
          exact hfree
      | _ =>
          exact ⟨moment, Nat.le_refl _, (poised_at hdisc hfirst exec moment).enabled hdisc
            (fun _ => hable' moment hmoment) (by simp [htodo])⟩
  | nil =>
      exact ⟨moment, Nat.le_refl _, (poised_at hdisc hfirst exec moment).enabled hdisc
        (fun _ => hable' moment hmoment) (by simp [htodo])⟩

/-- From some time on the agent takes its step, and finds ready what it needs. -/
def TakesStep (exec : Execution (guarded sys locking) (idle first)) (agent : Agent)
    (ready : State → Prop) (time : ℕ) : Prop :=
  ∃ later, time ≤ later ∧ locking.agent (exec.label later) = agent ∧
    ready (exec.state later).base ∧
    sys.step (exec.state later).base (exec.label later) =
      some ((exec.state (later + 1)).base, exec.events later)

theorem TakesStep.of_later {time later : ℕ} (hle : time ≤ later)
    (htakes : TakesStep exec agent ready later) : TakesStep exec agent ready time := by
  obtain ⟨last, hlast, htakes⟩ := htakes
  exact ⟨last, Nat.le_trans hle hlast, htakes⟩

/-- The agent's next move: it starts its script, gets one instruction further in
it, or takes its step. -/
theorem exists_next (hdisc : Disciplined sys locking inv) (hfirst : inv first)
    (hfair : StronglyFair exec locking.agent)
    (hawaits : Awaits sys locking inv agent ready)
    {time : ℕ} (hready : ready (exec.state time).base) :
    TakesStep exec agent ready time ∨
      ∃ later, time ≤ later ∧ ready (exec.state later).base ∧
        ((exec.state time).todo agent = [] ∧
            (exec.state later).todo agent = locking.script (exec.state later).base agent ∨
          ∃ instr, instr ≠ .act ∧
            (exec.state time).todo agent = instr :: (exec.state later).todo agent) := by
  obtain ⟨later, hle, hagent, hstill⟩ :=
    exists_move hdisc hfirst hfair hawaits hready
  have hsame := (still_until hdisc hfirst hle hstill).1
  have hready' := ready_until hdisc hfirst hawaits hle hready hstill
  have hself := (guardedMoves_of_step (exec.step later)).todo_self
  rw [hagent, hsame] at hself
  rcases hself with ⟨hnil, hbase, hscript⟩ | ⟨instr, hinstr, hbase, htodo⟩ | ⟨-, hstep⟩
  · refine Or.inr ⟨later + 1, by omega, hbase ▸ hready', Or.inl ⟨hnil, ?_⟩⟩
    rw [hbase, hscript]
  · exact Or.inr ⟨later + 1, by omega, hbase ▸ hready', Or.inr ⟨instr, hinstr, htodo⟩⟩
  · exact Or.inl ⟨later, hle, hagent, hready', hstep⟩

/-- A script that has the step before it comes to it. -/
theorem takesStep_of_mem (hdisc : Disciplined sys locking inv) (hfirst : inv first)
    (hfair : StronglyFair exec locking.agent)
    (hawaits : Awaits sys locking inv agent ready)
    {time : ℕ} (hready : ready (exec.state time).base)
    (hact : .act ∈ (exec.state time).todo agent) : TakesStep exec agent ready time := by
  induction htodo : (exec.state time).todo agent generalizing time with
  | nil => simp [htodo] at hact
  | cons instr rest ih =>
      rcases exists_next hdisc hfirst hfair hawaits hready with
        htakes | ⟨later, hle, hready', ⟨hnil, -⟩ | ⟨other, hother, hrest⟩⟩
      · exact htakes
      · simp [htodo] at hnil
      · rw [hrest, List.mem_cons] at hact
        obtain ⟨rfl, hsame⟩ := List.cons.inj (htodo.symm.trans hrest)
        exact (ih hready' (hact.resolve_left hother.symm) hsame.symm).of_later hle

/-- In a fair run an agent that has a step to take takes it. -/
theorem takesStep (hdisc : Disciplined sys locking inv) (hfirst : inv first)
    (hfair : StronglyFair exec locking.agent)
    (hawaits : Awaits sys locking inv agent ready)
    {time : ℕ} (hready : ready (exec.state time).base) : TakesStep exec agent ready time := by
  induction htodo : (exec.state time).todo agent generalizing time with
  | nil =>
      rcases exists_next hdisc hfirst hfair hawaits hready with
        htakes | ⟨later, hle, hready', ⟨-, hscript⟩ | ⟨instr, -, hrest⟩⟩
      · exact htakes
      · have hne := hawaits.able _ (poised_at hdisc hfirst exec later).base hready'
        have hact : .act ∈ (exec.state later).todo agent := by
          rw [hscript]
          exact hdisc.acts _ _ hne
        exact (takesStep_of_mem hdisc hfirst hfair hawaits hready' hact).of_later hle
      · simp [htodo] at hrest
  | cons instr rest ih =>
      rcases exists_next hdisc hfirst hfair hawaits hready with
        htakes | ⟨later, hle, hready', ⟨hnil, -⟩ | ⟨other, -, hrest⟩⟩
      · exact htakes
      · simp [htodo] at hnil
      · obtain ⟨-, hsame⟩ := List.cons.inj (htodo.symm.trans hrest)
        exact (ih hready' hsame.symm).of_later hle

end Acts

end Progress

end ArcravenUgv.Mutex
