import ArcravenUgv.Core.Safety
import ArcravenUgv.Lib.Runs

/-!
# Threads at the E-STOP latch

Any number of threads call `trigger`, `latched` and `reason_string`.  The
compare-exchange, the locked store of the reason and the loads are single steps.
-/

namespace ArcravenUgv.Latching

open Function
open ArcravenUgv.Command
open ArcravenUgv.Runs
open ArcravenUgv.Safety

/-- Where a thread is. -/
inductive Phase
  | idle
  /-- In `trigger`, with the exchange won and the reason not yet stored. -/
  | storing (reason : Bytes)
  /-- In `trigger`, at the log line. -/
  | logging
  /-- In `reason_string`; whether a call of `latched` had returned true before. -/
  | reading (afterLatched : Bool)
  deriving DecidableEq, Repr

variable {Thread : Type*}

inductive Label (Thread : Type*)
  | trigger (thread : Thread) (reason : Bytes)
  | storeReason (thread : Thread)
  | latched (thread : Thread)
  | callReasonString (thread : Thread)
  | loadReason (thread : Thread)

inductive Event (Thread : Type*)
  | won (thread : Thread) (reason : Bytes)
  | stored (thread : Thread) (reason : Bytes)
  | latchedReturned (thread : Thread) (value : Bool)
  | reasonReturned (thread : Thread) (afterLatched : Bool) (value : Bytes)
  deriving DecidableEq

/-- `observed` keeps whether some call of `latched` has returned true. -/
structure State (Thread : Type*) where
  estop : EStopLatch
  phase : Thread → Phase
  observed : Bool

def initial : State Thread where
  estop := {}
  phase := fun _ => .idle
  observed := false

def State.move [DecidableEq Thread] (state : State Thread) (thread : Thread) (phase : Phase) :
    State Thread :=
  { state with phase := update state.phase thread phase }

def step [DecidableEq Thread] (state : State Thread) :
    Label Thread → Option (State Thread × List (Event Thread))
  | .trigger thread reason =>
      if state.phase thread = .idle then
        let (estop, won) := state.estop.exchange
        if won then
          some (({ state with estop := estop } : State Thread).move thread (.storing reason),
            [.won thread reason])
        else some ({ state with estop := estop }, [])
      else none
  | .storeReason thread =>
      match state.phase thread with
      | .storing reason =>
          some (({ state with estop := state.estop.storeReason reason } : State Thread).move
            thread .logging, [.stored thread reason])
      | _ => none
  | .latched thread =>
      if state.phase thread = .idle then
        some ({ state with observed := state.observed || state.estop.latched },
          [.latchedReturned thread state.estop.latched])
      else none
  | .callReasonString thread =>
      if state.phase thread = .idle ∨ state.phase thread = .logging then
        some (state.move thread (.reading state.observed), [])
      else none
  | .loadReason thread =>
      match state.phase thread with
      | .reading afterLatched =>
          some (state.move thread .idle,
            [.reasonReturned thread afterLatched state.estop.reasonString])
      | _ => none

def latch [DecidableEq Thread] : System (State Thread) (Label Thread) (Event Thread) where
  step := step

/-- The triggers whose exchange succeeded, in order. -/
def wins : List (Event Thread) → List (Thread × Bytes) :=
  List.filterMap fun
    | .won thread reason => some (thread, reason)
    | _ => none

/-- The reasons stored, in order. -/
def stores : List (Event Thread) → List (Thread × Bytes) :=
  List.filterMap fun
    | .stored thread reason => some (thread, reason)
    | _ => none

/-! ## What a step does -/

/-- A step wins, stores, or leaves the latch and every pending store alone. -/
inductive Step [DecidableEq Thread] (state : State Thread) :
    Label Thread → State Thread → List (Event Thread) → Prop
  | win (thread : Thread) (reason : Bytes) (hphase : state.phase thread = .idle)
      (hlatched : state.estop.latched = false) :
      Step state (.trigger thread reason)
        (({ state with estop := { state.estop with latched := true } } : State Thread).move
          thread (.storing reason)) [.won thread reason]
  | store (thread : Thread) (reason : Bytes) (hphase : state.phase thread = .storing reason) :
      Step state (.storeReason thread)
        (({ state with estop := state.estop.storeReason reason } : State Thread).move
          thread .logging) [.stored thread reason]
  | lose (thread : Thread) (reason : Bytes) : Step state (.trigger thread reason) state []
  | observe (thread : Thread) :
      Step state (.latched thread) { state with observed := state.observed || state.estop.latched }
        [.latchedReturned thread state.estop.latched]
  | call (thread : Thread) (hphase : state.phase thread = .idle ∨ state.phase thread = .logging) :
      Step state (.callReasonString thread) (state.move thread (.reading state.observed)) []
  | load (thread : Thread) (afterLatched : Bool)
      (hphase : state.phase thread = .reading afterLatched) :
      Step state (.loadReason thread) (state.move thread .idle)
        [.reasonReturned thread afterLatched state.estop.reasonString]

theorem step_spec [DecidableEq Thread] {state next : State Thread} {label : Label Thread}
    {events : List (Event Thread)} (hstep : step state label = some (next, events)) :
    Step state label next events := by
  cases label with
  | trigger thread reason =>
      by_cases hphase : state.phase thread = .idle
      · cases hlatched : state.estop.latched with
        | true =>
            have hexchange : state.estop.exchange = (state.estop, false) := by
              simp [EStopLatch.exchange, hlatched]
            simp only [step, if_pos hphase, hexchange, Bool.false_eq_true, if_false,
              Option.some.injEq, Prod.mk.injEq] at hstep
            obtain ⟨rfl, rfl⟩ := hstep
            exact .lose thread reason
        | false =>
            have hexchange : state.estop.exchange =
                ({ state.estop with latched := true }, true) := by
              simp [EStopLatch.exchange, hlatched]
            simp only [step, if_pos hphase, hexchange, if_true, Option.some.injEq,
              Prod.mk.injEq] at hstep
            obtain ⟨rfl, rfl⟩ := hstep
            exact .win thread reason hphase hlatched
      · simp [step, hphase] at hstep
  | storeReason thread =>
      simp only [step] at hstep
      split at hstep
      · rename_i reason hphase
        obtain ⟨rfl, rfl⟩ := Prod.mk.inj (Option.some.inj hstep)
        exact .store thread reason hphase
      · cases hstep
  | latched thread =>
      simp only [step] at hstep
      split_ifs at hstep
      obtain ⟨rfl, rfl⟩ := Prod.mk.inj (Option.some.inj hstep)
      exact .observe thread
  | callReasonString thread =>
      simp only [step] at hstep
      split_ifs at hstep with hphase
      obtain ⟨rfl, rfl⟩ := Prod.mk.inj (Option.some.inj hstep)
      exact .call thread hphase
  | loadReason thread =>
      simp only [step] at hstep
      split at hstep
      · rename_i afterLatched hphase
        obtain ⟨rfl, rfl⟩ := Prod.mk.inj (Option.some.inj hstep)
        exact .load thread afterLatched hphase
      · cases hstep

/-! ## What runs keep -/

/-- Nobody has won, the winner has yet to store, or its reason stands. -/
inductive Stage (trace : List (Event Thread)) (state : State Thread) : Prop
  | unlatched (hwins : wins trace = []) (hstores : stores trace = [])
      (hestop : state.estop = {}) (hphase : ∀ thread reason, state.phase thread ≠ .storing reason)
  | pending (winner : Thread) (reason : Bytes) (hwins : wins trace = [(winner, reason)])
      (hstores : stores trace = []) (hestop : state.estop = { latched := true, reason := none })
      (hphase : ∀ thread other, state.phase thread = .storing other ↔
        thread = winner ∧ other = reason)
  | settled (winner : Thread) (reason : Bytes) (hwins : wins trace = [(winner, reason)])
      (hstores : stores trace = [(winner, reason)])
      (hestop : state.estop = { latched := true, reason := some reason })
      (hphase : ∀ thread other, state.phase thread ≠ .storing other)

theorem stage_initial : Stage ([] : List (Event Thread)) initial :=
  .unlatched rfl rfl rfl fun _ _ hphase => Phase.noConfusion hphase

theorem wins_append (trace events : List (Event Thread)) :
    wins (trace ++ events) = wins trace ++ wins events :=
  List.filterMap_append

theorem stores_append (trace events : List (Event Thread)) :
    stores (trace ++ events) = stores trace ++ stores events :=
  List.filterMap_append

/-- Steps that neither win nor store keep the stage. -/
theorem Stage.quiet {trace events : List (Event Thread)} {state next : State Thread}
    (hstage : Stage trace state) (hwins : wins events = []) (hstores : stores events = [])
    (hestop : next.estop = state.estop)
    (hphase : ∀ thread reason,
      next.phase thread = .storing reason ↔ state.phase thread = .storing reason) :
    Stage (trace ++ events) next := by
  have hallWins : wins (trace ++ events) = wins trace := by
    rw [wins_append, hwins, List.append_nil]
  have hallStores : stores (trace ++ events) = stores trace := by
    rw [stores_append, hstores, List.append_nil]
  cases hstage with
  | unlatched hwins hstores hlatch hnone =>
      apply Stage.unlatched (hallWins.trans hwins) (hallStores.trans hstores) (hestop.trans hlatch)
      intro thread reason hstoring
      exact hnone thread reason ((hphase thread reason).1 hstoring)
  | pending winner reason hwins hstores hlatch hwinner =>
      apply Stage.pending winner reason (hallWins.trans hwins) (hallStores.trans hstores)
        (hestop.trans hlatch)
      intro thread other
      rw [hphase, hwinner]
  | settled winner reason hwins hstores hlatch hnone =>
      apply Stage.settled winner reason (hallWins.trans hwins) (hallStores.trans hstores)
        (hestop.trans hlatch)
      intro thread other hstoring
      exact hnone thread other ((hphase thread other).1 hstoring)

section Steps

variable [DecidableEq Thread]

/-- A thread that is not storing moves to a phase that is not storing. -/
theorem move_storing_iff {state : State Thread} {thread : Thread} {phase : Phase}
    (hbefore : ∀ reason, state.phase thread ≠ .storing reason)
    (hafter : ∀ reason, phase ≠ .storing reason) (other : Thread) (reason : Bytes) :
    (state.move thread phase).phase other = .storing reason ↔
      state.phase other = .storing reason := by
  by_cases hother : other = thread
  · subst hother
    simp [State.move, hbefore, hafter]
  · simp [State.move, hother]

theorem Stage.step {trace events : List (Event Thread)} {state next : State Thread}
    {label : Label Thread} (hstage : Stage trace state) (hstep : Step state label next events) :
    Stage (trace ++ events) next := by
  cases hstep with
  | win thread reason hphase hlatched =>
      cases hstage with
      | unlatched hwins hstores hestop hnone =>
          apply Stage.pending thread reason
          · rw [wins_append, hwins]
            rfl
          · rw [stores_append, hstores]
            rfl
          · simp [State.move, hestop]
          · intro other stored
            by_cases hother : other = thread
            · subst hother
              simp [State.move, eq_comm]
            · simp [State.move, hother, hnone]
      | pending winner stored hwins hstores hestop => simp [hestop] at hlatched
      | settled winner stored hwins hstores hestop => simp [hestop] at hlatched
  | store thread reason hphase =>
      cases hstage with
      | unlatched hwins hstores hestop hnone => exact absurd hphase (hnone thread reason)
      | pending winner stored hwins hstores hestop hwinner =>
          obtain ⟨rfl, rfl⟩ := (hwinner thread reason).1 hphase
          apply Stage.settled thread reason
          · rw [wins_append, hwins]
            rfl
          · rw [stores_append, hstores]
            rfl
          · simp [State.move, EStopLatch.storeReason, hestop]
          · intro other value
            by_cases hother : other = thread
            · simp [State.move, hother]
            · simp [State.move, hother, hwinner]
      | settled winner stored hwins hstores hestop hnone =>
          exact absurd hphase (hnone thread reason)
  | lose => exact hstage.quiet rfl rfl rfl fun _ _ => Iff.rfl
  | observe thread => exact hstage.quiet rfl rfl rfl fun _ _ => Iff.rfl
  | call thread hphase =>
      have hbefore : ∀ reason, state.phase thread ≠ .storing reason := by
        rcases hphase with hphase | hphase <;> simp [hphase]
      exact hstage.quiet rfl rfl rfl (move_storing_iff hbefore (by simp))
  | load thread afterLatched hphase =>
      exact hstage.quiet rfl rfl rfl (move_storing_iff (by simp [hphase]) (by simp))

end Steps

/-- The latch is seen set. -/
def Shows : Event Thread → Prop
  | .won _ _ => True
  | .latchedReturned _ value => value = true
  | _ => False

def ReturnsFalse : Event Thread → Prop
  | .latchedReturned _ value => value = false
  | _ => False

structure Seen (trace : List (Event Thread)) (state : State Thread) : Prop where
  latched : ∀ event ∈ trace, Shows event → state.estop.latched = true
  noneAfter : NoneAfter Shows ReturnsFalse trace
  observed : state.observed = true ↔ ∃ thread, .latchedReturned thread true ∈ trace

section Runs

variable [DecidableEq Thread]

section Step

variable {state next : State Thread} {label : Label Thread} {events : List (Event Thread)}

/-- Once latched, always latched. -/
theorem Step.latched (hstep : Step state label next events)
    (hlatched : state.estop.latched = true) : next.estop.latched = true := by
  cases hstep with
  | win => rfl
  | store | lose | observe | call | load => exact hlatched

theorem Step.shows (hstep : Step state label next events) :
    ∀ event ∈ events, Shows event → next.estop.latched = true := by
  cases hstep with
  | win => exact fun _ _ _ => rfl
  | observe thread => simp [Shows]
  | store | lose | call | load => simp [Shows]

theorem Step.returnsFalse (hstep : Step state label next events) :
    ∀ event ∈ events, ReturnsFalse event → state.estop.latched = false := by
  cases hstep with
  | observe thread => simp [ReturnsFalse]
  | win | store | lose | call | load => simp [ReturnsFalse]

theorem Step.observed (hstep : Step state label next events) :
    next.observed = true ↔
      state.observed = true ∨ ∃ thread, .latchedReturned thread true ∈ events := by
  cases hstep with
  | observe thread => cases state.estop.latched <;> simp
  | win | store | lose | call | load => simp [State.move]

theorem Step.noneAfter (hstep : Step state label next events) :
    NoneAfter Shows ReturnsFalse events := by
  cases hstep with
  | lose | call => exact noneAfter_nil
  | win | store | observe | load => exact List.pairwise_singleton _ _

end Step

theorem Seen.step {trace events : List (Event Thread)} {state next : State Thread}
    {label : Label Thread} (hseen : Seen trace state) (hstep : Step state label next events) :
    Seen (trace ++ events) next := by
  constructor
  · intro event hevent hshows
    rcases List.mem_append.1 hevent with hold | hnew
    · exact hstep.latched (hseen.latched event hold hshows)
    · exact hstep.shows event hnew hshows
  · cases hlatched : state.estop.latched with
    | true =>
        apply hseen.noneAfter.append_quiet
        intro event hevent hfalse
        simp [hstep.returnsFalse event hevent hfalse] at hlatched
    | false =>
        apply NoneAfter.append_unmarked _ hstep.noneAfter
        intro event hevent hshows
        simp [hseen.latched event hevent hshows] at hlatched
  · rw [hstep.observed, hseen.observed]
    simp only [List.mem_append, exists_or]

variable {trace : List (Event Thread)} {state : State Thread}

theorem stage_of_run {allowed : State Thread → Label Thread → Prop}
    (hrun : Run latch allowed initial trace state) : Stage trace state := by
  apply hrun.invariant Stage stage_initial
  intro trace state label next events _ hstage _ hstep
  exact hstage.step (step_spec hstep)

theorem seen_of_run {allowed : State Thread → Label Thread → Prop}
    (hrun : Run latch allowed initial trace state) : Seen trace state := by
  apply hrun.invariant Seen ⟨by simp, noneAfter_nil, by simp [initial]⟩
  intro trace state label next events _ hseen _ hstep
  exact hseen.step (step_spec hstep)

/-! ## Reading the reason -/

/-- A `reason_string` call that began after a call of `latched` returned true
does its load after the winner's store. -/
def StoredFirst (state : State Thread) : Label Thread → Prop
  | .loadReason thread =>
      state.phase thread = .reading true → state.estop.reason.isSome = true
  | _ => True

instance storedFirstDecidable (state : State Thread) (label : Label Thread) :
    Decidable (StoredFirst state label) :=
  match label with
  | .loadReason _ => inferInstanceAs (Decidable (_ → _))
  | .trigger _ _ | .storeReason _ | .latched _ | .callReasonString _ =>
      inferInstanceAs (Decidable True)

/-- What such calls returned is the reason that is stored. -/
def ReturnsStored (trace : List (Event Thread)) (state : State Thread) : Prop :=
  ∀ thread value, .reasonReturned thread true value ∈ trace → state.estop.reason = some value

theorem ReturnsStored.step {events : List (Event Thread)} {next : State Thread}
    {label : Label Thread} (hreturns : ReturnsStored trace state) (hstage : Stage trace state)
    (hallowed : StoredFirst state label) (hstep : Step state label next events) :
    ReturnsStored (trace ++ events) next := by
  intro thread value hmem
  have hold : .reasonReturned thread true value ∈ trace → state.estop.reason = some value :=
    hreturns thread value
  cases hstep with
  | win other reason hphase hlatched =>
      exact hold (by simpa using hmem)
  | store other reason hphase =>
      -- The reason that was returned is in place, so nobody can still be storing.
      have hstored := hold (by simpa using hmem)
      cases hstage with
      | unlatched _ _ hestop => simp [hestop] at hstored
      | pending _ _ _ _ hestop => simp [hestop] at hstored
      | settled _ _ _ _ _ hnone => exact absurd hphase (hnone other reason)
  | lose | observe | call => exact hold (by simpa using hmem)
  | load other afterLatched hphase =>
      rcases List.mem_append.1 hmem with hmem | hmem
      · exact hold hmem
      · obtain ⟨rfl, rfl, rfl⟩ : thread = other ∧ afterLatched = true ∧
            value = state.estop.reasonString := by simpa [eq_comm] using hmem
        obtain ⟨stored, hstored⟩ := Option.isSome_iff_exists.1 (hallowed hphase)
        simp [State.move, EStopLatch.reasonString, hstored]

theorem returnsStored_of_run (hrun : Run latch StoredFirst initial trace state) :
    ReturnsStored trace state := by
  apply hrun.invariant ReturnsStored (by simp [ReturnsStored])
  intro trace state label next events hrun hreturns hallowed hstep
  exact hreturns.step (stage_of_run hrun) hallowed (step_spec hstep)

/-- The flag is never seen cleared, one reason is stored at most and it is the
winner's, and calls of `reason_string` return it where the store came first. -/
theorem estop_latch_runs :
    (∀ (trace : List (Event Thread)) (state : State Thread),
      Run latch always initial trace state →
        NoneAfter Shows ReturnsFalse trace ∧ Stage trace state ∧
        (state.observed = true ↔ ∃ thread, .latchedReturned thread true ∈ trace)) ∧
    ∀ (trace : List (Event Thread)) (state : State Thread),
      Run latch StoredFirst initial trace state → ∀ thread value,
        .reasonReturned thread true value ∈ trace →
          ∃ winner, wins trace = [(winner, value)] := by
  constructor
  · intro trace state hrun
    have hseen := seen_of_run hrun
    exact ⟨hseen.noneAfter, stage_of_run hrun, hseen.observed⟩
  · intro trace state hrun thread value hreturned
    have hreason := returnsStored_of_run hrun thread value hreturned
    cases stage_of_run hrun with
    | unlatched _ _ hestop => simp [hestop] at hreason
    | pending winner reason _ _ hestop => simp [hestop] at hreason
    | settled winner reason hwins _ hestop =>
        rw [hestop, Option.some.injEq] at hreason
        exact ⟨winner, by rw [hwins, hreason]⟩

end Runs

/-- The control thread latches, stores and logs, then `safe_shutdown` reports. -/
theorem estop_latch_shutdown_report :
    ∃ (trace : List (Event ℕ)) (state : State ℕ), Run latch StoredFirst initial trace state ∧
      .reasonReturned 1 true (Decimal.ascii "EmergencyStop command") ∈ trace ∧
      ∃ winner, wins trace = [(winner, Decimal.ascii "EmergencyStop command")] := by
  obtain ⟨state, hrun⟩ := exists_run_of_trace latch StoredFirst initial
    [.trigger 0 (Decimal.ascii "EmergencyStop command"), .storeReason 0, .callReasonString 0,
      .latched 1, .callReasonString 1, .loadReason 1, .loadReason 0]
    (by decide +kernel : _ = some
      [.won 0 (Decimal.ascii "EmergencyStop command"),
        .stored 0 (Decimal.ascii "EmergencyStop command"), .latchedReturned 1 true,
        .reasonReturned 1 true (Decimal.ascii "EmergencyStop command"),
        .reasonReturned 0 false (Decimal.ascii "EmergencyStop command")])
  exact ⟨_, state, hrun, by simp, estop_latch_runs.2 _ state hrun 1 _ (by simp)⟩

/-- `safe_shutdown` asks between the exchange and the store. -/
theorem reason_string_unknown :
    ¬ ∀ (trace : List (Event ℕ)) (state : State ℕ), Run latch always initial trace state →
      ∀ thread value, .reasonReturned thread true value ∈ trace →
        ∃ winner, wins trace = [(winner, value)] := by
  intro hall
  obtain ⟨state, hrun⟩ := exists_run_of_trace latch always initial
    [.trigger 0 (Decimal.ascii "EmergencyStop command"), .latched 1, .callReasonString 1,
      .loadReason 1]
    (by decide +kernel : _ = some
      [.won 0 (Decimal.ascii "EmergencyStop command"), .latchedReturned 1 true,
        .reasonReturned 1 true (Decimal.ascii "unknown")])
  obtain ⟨winner, hwins⟩ := hall _ state hrun 1 (Decimal.ascii "unknown") (by simp)
  simp only [wins, List.filterMap_cons, List.filterMap_nil, List.cons.injEq, Prod.mk.injEq,
    and_true] at hwins
  exact absurd hwins.2 (by decide +kernel)

end ArcravenUgv.Latching
