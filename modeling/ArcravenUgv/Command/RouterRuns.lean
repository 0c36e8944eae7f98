import ArcravenUgv.Command.Router
import ArcravenUgv.Lib.Runs

/-!
# The router under any number of threads

A run interleaves the locked sections of `submit`, `register_handler` and
`process_one` with the unlocked steps of `process_one`.  The commands taken off
the queue are numbered in the order they are taken; the number is the ticket by
which the trace speaks about them.  A handler is any terminating computation
that reads outside values, calls `submit` and finally returns a result.
-/

namespace ArcravenUgv.RouterRuns

open ArcravenUgv.Command
open ArcravenUgv.Command.CommandRouter
open ArcravenUgv.Runs

/-- What a handler does when it is called: `World` is whatever it reads outside
the router. -/
inductive HandlerCode (World : Type)
  | ret (result : CommandResult)
  | observe (next : World → HandlerCode World)
  | submit (cmd : CommandEnvelope) (next : CommandResult → HandlerCode World)

/-- `using CommandHandler = std::function<CommandResult(const CommandEnvelope&)>`. -/
abbrev CommandHandler (World : Type) := CommandEnvelope → HandlerCode World

/-- Where a thread is inside `process_one`. -/
inductive Stage (World : Type)
  | idle
  | taken (ticket : ℕ) (cmd : CommandEnvelope) (handler : Option (CommandHandler World))
      (nowNs : UInt64)
  | running (ticket : ℕ) (cmd : CommandEnvelope) (code : HandlerCode World)

/-- The ticket a thread is working on. -/
def Stage.ticket {World : Type} : Stage World → Option ℕ
  | .idle => none
  | .taken ticket _ _ _ => some ticket
  | .running ticket _ _ => some ticket

structure Shared (Thread World : Type) where
  router : CommandRouter (CommandHandler World)
  tickets : ℕ
  stage : Thread → Stage World

inductive Call (World : Type)
  | submit (cmd : CommandEnvelope)
  | registerHandler (cmd : UInt16) (handler : Option (CommandHandler World))
  | processOne (nowNs : UInt64)
  | proceed (world : World)

inductive Event
  | submitted (cmd : CommandEnvelope) (answer : CommandResult)
  | registered (cmd : UInt16) (nonEmpty : Bool)
  | taken (ticket : ℕ) (cmd : CommandEnvelope) (nowNs : UInt64) (handled : Bool)
  | called (ticket : ℕ)
  | completed (ticket : ℕ) (cmd : CommandEnvelope) (result : CommandResult)
  deriving DecidableEq

/-- The events about one ticket. -/
def Event.about (ticket : ℕ) : Event → Bool
  | .submitted _ _ => false
  | .registered _ _ => false
  | .taken other _ _ _ => other = ticket
  | .called other => other = ticket
  | .completed other _ _ => other = ticket

def history (ticket : ℕ) (trace : List Event) : List Event :=
  trace.filter (Event.about ticket)

def acceptedCommands (trace : List Event) : List CommandEnvelope :=
  trace.filterMap fun
    | .submitted cmd answer => if answer.status = .accepted then some cmd else none
    | _ => none

def takenCommands (trace : List Event) : List CommandEnvelope :=
  trace.filterMap fun
    | .taken _ cmd _ _ => some cmd
    | _ => none

/-- Whether the last handler registered for a command number is a non-empty one. -/
def hasNonEmpty (cmd : UInt16) (trace : List Event) : Bool :=
  (trace.filterMap fun
    | .registered other nonEmpty => if other = cmd then some nonEmpty else none
    | _ => none).getLast?.getD false

variable {Thread World : Type} [DecidableEq Thread]

def start (cfg : CommandRouterConfig) : Shared Thread World where
  router := create cfg
  tickets := 0
  stage := fun _ => .idle

def Shared.setStage (state : Shared Thread World) (thread : Thread)
    (stage : Stage World) : Shared Thread World :=
  { state with stage := Function.update state.stage thread stage }

/-- One step of a thread that is not inside `process_one`. -/
def outerStep (state : Shared Thread World) (thread : Thread) :
    Call World → Option (Shared Thread World × List Event)
  | .submit cmd =>
      let (router, answer) := state.router.submit cmd
      some ({ state with router := router }, [.submitted cmd answer])
  | .registerHandler cmd handler =>
      some ({ state with router := state.router.registerHandler cmd handler },
        [.registered cmd handler.isSome])
  | .processOne nowNs =>
      match state.router.takeFront with
      | none => some (state, [])
      | some (cmd, handler, router) =>
          some ({ state with router := router, tickets := state.tickets + 1 }.setStage
              thread (.taken state.tickets cmd handler nowNs),
            [.taken state.tickets cmd nowNs handler.isSome])
  | .proceed _ => none

/-- One step of a thread that called a handler. -/
def handlerStep (state : Shared Thread World) (thread : Thread) (ticket : ℕ)
    (cmd : CommandEnvelope) (world : World) :
    HandlerCode World → Shared Thread World × List Event
  | .ret result =>
      (state.setStage thread .idle, [.completed ticket cmd (settle result)])
  | .observe next => (state.setStage thread (.running ticket cmd (next world)), [])
  | .submit inner next =>
      let (router, answer) := state.router.submit inner
      ({ state with router := router }.setStage thread (.running ticket cmd (next answer)),
        [.submitted inner answer])

def step (state : Shared Thread World) (label : Thread × Call World) :
    Option (Shared Thread World × List Event) :=
  match state.stage label.1, label.2 with
  | .idle, call => outerStep state label.1 call
  | .taken ticket cmd handler nowNs, .proceed _ =>
      match dispatch cmd handler nowNs with
      | .error result =>
          some (state.setStage label.1 .idle, [.completed ticket cmd result])
      | .ok handler =>
          some (state.setStage label.1 (.running ticket cmd (handler cmd)), [.called ticket])
  | .running ticket cmd code, .proceed world =>
      some (handlerStep state label.1 ticket cmd world code)
  | _, _ => none

def system : System (Shared Thread World) (Thread × Call World) Event where
  step := step

/-! ## What one step can do -/

/-- Every way a thread can move. -/
inductive Moves (state : Shared Thread World) (thread : Thread) :
    Shared Thread World → List Event → Prop
  | submit (cmd : CommandEnvelope) :
      Moves state thread { state with router := (state.router.submit cmd).1 }
        [.submitted cmd (state.router.submit cmd).2]
  | registerHandler (cmd : UInt16) (handler : Option (CommandHandler World)) :
      Moves state thread
        { state with router := state.router.registerHandler cmd handler }
        [.registered cmd handler.isSome]
  | empty : Moves state thread state []
  | take (cmd : CommandEnvelope) (rest : List CommandEnvelope) (nowNs : UInt64)
      (hidle : state.stage thread = .idle) (hq : state.router.q = cmd :: rest) :
      Moves state thread
        (Shared.setStage { state with
            router := { state.router with q := rest }
            tickets := state.tickets + 1 } thread
          (.taken state.tickets cmd (state.router.handlers cmd.command).join nowNs))
        [.taken state.tickets cmd nowNs (state.router.handlers cmd.command).join.isSome]
  | refuse (ticket : ℕ) (cmd : CommandEnvelope)
      (handler : Option (CommandHandler World)) (nowNs : UInt64) (result : CommandResult)
      (hstage : state.stage thread = .taken ticket cmd handler nowNs)
      (hdispatch : dispatch cmd handler nowNs = .error result) :
      Moves state thread (state.setStage thread .idle) [.completed ticket cmd result]
  | call (ticket : ℕ) (cmd : CommandEnvelope) (handler : CommandHandler World)
      (nowNs : UInt64)
      (hstage : state.stage thread = .taken ticket cmd (some handler) nowNs)
      (hfresh : isExpired cmd nowNs = false) :
      Moves state thread (state.setStage thread (.running ticket cmd (handler cmd)))
        [.called ticket]
  | observe (ticket : ℕ) (cmd : CommandEnvelope) (next : World → HandlerCode World)
      (world : World) (hstage : state.stage thread = .running ticket cmd (.observe next)) :
      Moves state thread (state.setStage thread (.running ticket cmd (next world))) []
  | submitInside (ticket : ℕ) (cmd inner : CommandEnvelope)
      (next : CommandResult → HandlerCode World)
      (hstage : state.stage thread = .running ticket cmd (.submit inner next)) :
      Moves state thread
        (Shared.setStage { state with router := (state.router.submit inner).1 } thread
          (.running ticket cmd (next (state.router.submit inner).2)))
        [.submitted inner (state.router.submit inner).2]
  | finish (ticket : ℕ) (cmd : CommandEnvelope) (result : CommandResult)
      (hstage : state.stage thread = .running ticket cmd (.ret result)) :
      Moves state thread (state.setStage thread .idle)
        [.completed ticket cmd (settle result)]

theorem moves_of_step {state next : Shared Thread World}
    {label : Thread × Call World} {events : List Event}
    (hstep : step state label = some (next, events)) :
    Moves state label.1 next events := by
  obtain ⟨thread, call⟩ := label
  cases hstage : state.stage thread with
  | idle =>
      cases call with
      | submit cmd =>
          simp only [step, hstage, outerStep, Option.some.injEq, Prod.mk.injEq] at hstep
          obtain ⟨rfl, rfl⟩ := hstep
          exact .submit cmd
      | registerHandler cmd handler =>
          simp only [step, hstage, outerStep, Option.some.injEq, Prod.mk.injEq] at hstep
          obtain ⟨rfl, rfl⟩ := hstep
          exact .registerHandler cmd handler
      | processOne nowNs =>
          simp only [step, hstage, outerStep] at hstep
          split at hstep
          · simp only [Option.some.injEq, Prod.mk.injEq] at hstep
            obtain ⟨rfl, rfl⟩ := hstep
            exact .empty
          · rename_i cmd handler router hfront
            obtain ⟨hq, rfl, hrouter⟩ := takeFront_eq_some_iff.1 hfront
            simp only [Option.some.injEq, Prod.mk.injEq] at hstep
            obtain ⟨rfl, rfl⟩ := hstep
            rw [hrouter]
            exact .take cmd router.q nowNs hstage hq
      | proceed world => simp [step, hstage, outerStep] at hstep
  | taken ticket cmd handler nowNs =>
      cases call with
      | proceed world =>
          simp only [step, hstage] at hstep
          split at hstep
          · rename_i result hdispatch
            simp only [Option.some.injEq, Prod.mk.injEq] at hstep
            obtain ⟨rfl, rfl⟩ := hstep
            exact .refuse ticket cmd handler nowNs result hstage hdispatch
          · rename_i admitted hdispatch
            obtain ⟨hfresh, rfl⟩ := dispatch_ok_iff.1 hdispatch
            simp only [Option.some.injEq, Prod.mk.injEq] at hstep
            obtain ⟨rfl, rfl⟩ := hstep
            exact .call ticket cmd admitted nowNs hstage hfresh
      | _ => simp [step, hstage] at hstep
  | running ticket cmd code =>
      cases call with
      | proceed world =>
          simp only [step, hstage, Option.some.injEq] at hstep
          cases code with
          | ret result =>
              obtain ⟨rfl, rfl⟩ := Prod.mk.inj hstep
              exact .finish ticket cmd result hstage
          | observe next =>
              obtain ⟨rfl, rfl⟩ := Prod.mk.inj hstep
              exact .observe ticket cmd next world hstage
          | submit inner next =>
              obtain ⟨rfl, rfl⟩ := Prod.mk.inj hstep
              exact .submitInside ticket cmd inner next hstage
      | _ => simp [step, hstage] at hstep

/-! ## The queue between acceptance and dequeue -/

/-- Bounds on the queue, and what was taken followed by what is queued is what
was accepted. -/
structure Delivery (cfg : CommandRouterConfig) (trace : List Event)
    (router : CommandRouter (CommandHandler World)) : Prop where
  cfg_eq : router.cfg = cfg
  bounded : router.q.length ≤ cfg.maxQueue
  identified : ∀ cmd ∈ router.q, cmd.commandId ≠ 0
  ordered : acceptedCommands trace = takenCommands trace ++ router.q

theorem Delivery.submit {cfg : CommandRouterConfig} {trace : List Event}
    {router : CommandRouter (CommandHandler World)}
    (hdelivery : Delivery cfg trace router) (cmd : CommandEnvelope) :
    Delivery cfg (trace ++ [.submitted cmd (router.submit cmd).2])
      (router.submit cmd).1 := by
  rcases submit_cases router cmd with ⟨hroom, hid, hsubmit⟩ | ⟨hsame, hstatus⟩
  · rw [hsubmit]
    refine ⟨hdelivery.cfg_eq, ?_, ?_, ?_⟩
    · rw [hdelivery.cfg_eq] at hroom
      simpa using hroom
    · intro other hother
      rcases List.mem_append.1 hother with hother | hother
      · exact hdelivery.identified other hother
      · rw [List.mem_singleton.1 hother]
        exact hid
    · have hordered := hdelivery.ordered
      simp only [acceptedCommands, takenCommands] at hordered ⊢
      simp [hordered, queuedResult]
  · rw [hsame]
    refine ⟨hdelivery.cfg_eq, hdelivery.bounded, hdelivery.identified, ?_⟩
    have hordered := hdelivery.ordered
    simp only [acceptedCommands, takenCommands] at hordered ⊢
    simp [hordered, hstatus]

theorem Delivery.moves {cfg : CommandRouterConfig} {trace events : List Event}
    {state next : Shared Thread World} {thread : Thread}
    (hdelivery : Delivery cfg trace state.router)
    (hmoves : Moves state thread next events) :
    Delivery cfg (trace ++ events) next.router := by
  have hquiet : ∀ event : Event, (∀ cmd answer, event ≠ .submitted cmd answer) →
      (∀ ticket cmd nowNs handled, event ≠ .taken ticket cmd nowNs handled) →
      Delivery cfg (trace ++ [event]) state.router := by
    intro event hsubmitted htaken
    refine ⟨hdelivery.cfg_eq, hdelivery.bounded, hdelivery.identified, ?_⟩
    have hordered := hdelivery.ordered
    cases event with
    | submitted cmd answer => exact absurd rfl (hsubmitted cmd answer)
    | taken ticket cmd nowNs handled => exact absurd rfl (htaken ticket cmd nowNs handled)
    | registered cmd nonEmpty => simpa [acceptedCommands, takenCommands] using hordered
    | called ticket => simpa [acceptedCommands, takenCommands] using hordered
    | completed ticket cmd result =>
        simpa [acceptedCommands, takenCommands] using hordered
  cases hmoves with
  | submit cmd => exact hdelivery.submit cmd
  | submitInside ticket cmd inner code hstage => exact hdelivery.submit inner
  | registerHandler cmd handler =>
      have hsame := hquiet (.registered cmd handler.isSome) (by simp) (by simp)
      exact ⟨hsame.cfg_eq, hsame.bounded, hsame.identified, hsame.ordered⟩
  | empty => rwa [List.append_nil]
  | observe => rwa [List.append_nil]
  | take cmd rest nowNs hidle hq =>
      have hbounded := hdelivery.bounded
      have hidentified := hdelivery.identified
      have hordered := hdelivery.ordered
      rw [hq] at hbounded hidentified hordered
      refine ⟨hdelivery.cfg_eq, ?_, fun other hother => hidentified other ?_, ?_⟩
      · simp only [List.length_cons, Shared.setStage] at hbounded ⊢
        omega
      · exact List.mem_cons_of_mem _ hother
      · simp only [acceptedCommands, takenCommands] at hordered ⊢
        simp [hordered, Shared.setStage]
  | refuse | call | finish => exact hquiet _ (by simp) (by simp)

/-! ## The account of one ticket -/

/-- The whole story of a ticket: what the trace says about it and which thread,
if any, holds it. -/
inductive Account (trace : List Event) (state : Shared Thread World) (ticket : ℕ) : Prop
  | untaken (hticket : state.tickets ≤ ticket) (hhistory : history ticket trace = [])
      (hholder : ∀ thread, (state.stage thread).ticket ≠ some ticket)
  | taken (hticket : ticket < state.tickets) (thread : Thread) (cmd : CommandEnvelope)
      (handler : Option (CommandHandler World)) (nowNs : UInt64)
      (hhistory : history ticket trace = [.taken ticket cmd nowNs handler.isSome])
      (hstage : state.stage thread = .taken ticket cmd handler nowNs)
      (honly : ∀ other, (state.stage other).ticket = some ticket → other = thread)
  | running (hticket : ticket < state.tickets) (thread : Thread) (cmd : CommandEnvelope)
      (nowNs : UInt64) (code : HandlerCode World)
      (hhistory : history ticket trace = [.taken ticket cmd nowNs true, .called ticket])
      (hfresh : isExpired cmd nowNs = false)
      (hstage : state.stage thread = .running ticket cmd code)
      (honly : ∀ other, (state.stage other).ticket = some ticket → other = thread)
  | refused (hticket : ticket < state.tickets) (cmd : CommandEnvelope) (nowNs : UInt64)
      (handled : Bool) (result : CommandResult)
      (hhistory : history ticket trace =
        [.taken ticket cmd nowNs handled, .completed ticket cmd result])
      (hreason : (isExpired cmd nowNs = true ∧ result = staleResult) ∨
        (isExpired cmd nowNs = false ∧ handled = false ∧ result = unsupportedResult))
      (hholder : ∀ thread, (state.stage thread).ticket ≠ some ticket)
  | executed (hticket : ticket < state.tickets) (cmd : CommandEnvelope) (nowNs : UInt64)
      (result : CommandResult)
      (hhistory : history ticket trace =
        [.taken ticket cmd nowNs true, .called ticket, .completed ticket cmd (settle result)])
      (hfresh : isExpired cmd nowNs = false)
      (hholder : ∀ thread, (state.stage thread).ticket ≠ some ticket)

@[simp]
theorem history_append (ticket : ℕ) (before later : List Event) :
    history ticket (before ++ later) = history ticket before ++ history ticket later := by
  simp [history]

@[simp]
theorem history_nil (ticket : ℕ) : history ticket [] = [] := rfl

@[simp]
theorem history_singleton (ticket : ℕ) (event : Event) :
    history ticket [event] = if event.about ticket then [event] else [] := by
  cases h : event.about ticket <;> simp [history, h]

omit [DecidableEq Thread] in
/-- A step that says nothing about a ticket and moves no thread holding it
leaves its account as it was. -/
theorem Account.frame {trace events : List Event} {state next : Shared Thread World}
    {ticket : ℕ} (haccount : Account trace state ticket)
    (hevents : history ticket events = [])
    (htickets : ticket < state.tickets ↔ ticket < next.tickets)
    (hstage : ∀ thread, next.stage thread = state.stage thread ∨
      ((next.stage thread).ticket ≠ some ticket ∧
        (state.stage thread).ticket ≠ some ticket)) :
    Account (trace ++ events) next ticket := by
  have hkept : ∀ thread, (next.stage thread).ticket = some ticket →
      (state.stage thread).ticket = some ticket := by
    intro thread hholds
    rcases hstage thread with heq | ⟨hnext, -⟩
    · rwa [heq] at hholds
    · exact absurd hholds hnext
  have hsame : ∀ thread stage, state.stage thread = stage → stage.ticket = some ticket →
      next.stage thread = stage := by
    intro thread stage heq hholds
    rcases hstage thread with hnext | ⟨-, hother⟩
    · rw [hnext, heq]
    · rw [heq] at hother
      exact absurd hholds hother
  cases haccount with
  | untaken hticket hhistory hholder =>
      exact .untaken (by omega) (by simp [hhistory, hevents])
        fun thread hholds => hholder thread (hkept thread hholds)
  | taken hticket thread cmd handler nowNs hhistory hold honly =>
      exact .taken (by omega) thread cmd handler nowNs (by simp [hhistory, hevents])
        (hsame thread _ hold rfl) fun other hholds => honly other (hkept other hholds)
  | running hticket thread cmd nowNs code hhistory hfresh hold honly =>
      exact .running (by omega) thread cmd nowNs code (by simp [hhistory, hevents]) hfresh
        (hsame thread _ hold rfl) fun other hholds => honly other (hkept other hholds)
  | refused hticket cmd nowNs handled result hhistory hreason hholder =>
      exact .refused (by omega) cmd nowNs handled result (by simp [hhistory, hevents])
        hreason fun thread hholds => hholder thread (hkept thread hholds)
  | executed hticket cmd nowNs result hhistory hfresh hholder =>
      exact .executed (by omega) cmd nowNs result (by simp [hhistory, hevents]) hfresh
        fun thread hholds => hholder thread (hkept thread hholds)

omit [DecidableEq Thread] in
/-- The account of a ticket a thread has just taken. -/
theorem Account.of_taken {trace : List Event} {state : Shared Thread World}
    {ticket : ℕ} {thread : Thread} {cmd : CommandEnvelope}
    {handler : Option (CommandHandler World)} {nowNs : UInt64}
    (haccount : Account trace state ticket)
    (hstage : state.stage thread = .taken ticket cmd handler nowNs) :
    ticket < state.tickets ∧
      history ticket trace = [.taken ticket cmd nowNs handler.isSome] ∧
      ∀ other, (state.stage other).ticket = some ticket → other = thread := by
  have hholds : (state.stage thread).ticket = some ticket := by simp [hstage, Stage.ticket]
  cases haccount with
  | untaken _ _ hholder | refused _ _ _ _ _ _ _ hholder | executed _ _ _ _ _ _ hholder =>
      exact absurd hholds (hholder thread)
  | running _ holder _ _ _ _ _ hother honly =>
      rw [← honly thread hholds, hstage] at hother
      cases hother
  | taken hticket holder _ _ _ hhistory hother honly =>
      obtain rfl := honly thread hholds
      rw [hstage] at hother
      cases hother
      exact ⟨hticket, hhistory, honly⟩

omit [DecidableEq Thread] in
/-- The account of a ticket whose handler is running. -/
theorem Account.of_running {trace : List Event} {state : Shared Thread World}
    {ticket : ℕ} {thread : Thread} {cmd : CommandEnvelope} {code : HandlerCode World}
    (haccount : Account trace state ticket)
    (hstage : state.stage thread = .running ticket cmd code) :
    ∃ nowNs, ticket < state.tickets ∧ isExpired cmd nowNs = false ∧
      history ticket trace = [.taken ticket cmd nowNs true, .called ticket] ∧
      ∀ other, (state.stage other).ticket = some ticket → other = thread := by
  have hholds : (state.stage thread).ticket = some ticket := by simp [hstage, Stage.ticket]
  cases haccount with
  | untaken _ _ hholder | refused _ _ _ _ _ _ _ hholder | executed _ _ _ _ _ _ hholder =>
      exact absurd hholds (hholder thread)
  | taken _ holder _ _ _ _ hother honly =>
      rw [← honly thread hholds, hstage] at hother
      cases hother
  | running hticket holder _ nowNs _ hhistory hfresh hother honly =>
      obtain rfl := honly thread hholds
      rw [hstage] at hother
      cases hother
      exact ⟨nowNs, hticket, hfresh, hhistory, honly⟩

@[simp]
theorem setStage_stage_self (state : Shared Thread World) (thread : Thread)
    (stage : Stage World) : (state.setStage thread stage).stage thread = stage := by
  simp [Shared.setStage]

theorem setStage_stage_other {thread other : Thread} (hother : other ≠ thread)
    (state : Shared Thread World) (stage : Stage World) :
    (state.setStage thread stage).stage other = state.stage other := by
  simp [Shared.setStage, hother]

/-- Moving one thread between stages of other tickets touches no account. -/
theorem stage_frame_of_setStage {state : Shared Thread World} {thread : Thread}
    {stage : Stage World} {ticket : ℕ}
    (hold : (state.stage thread).ticket ≠ some ticket)
    (hnew : stage.ticket ≠ some ticket) (other : Thread) :
    (state.setStage thread stage).stage other = state.stage other ∨
      (((state.setStage thread stage).stage other).ticket ≠ some ticket ∧
        (state.stage other).ticket ≠ some ticket) := by
  by_cases hother : other = thread
  · subst hother
    exact Or.inr ⟨by simpa using hnew, hold⟩
  · exact Or.inl (setStage_stage_other hother state stage)

/-- Once the holder of a ticket goes idle nobody holds it. -/
theorem no_holder_of_setStage_idle {state : Shared Thread World} {thread : Thread}
    {ticket : ℕ}
    (honly : ∀ other, (state.stage other).ticket = some ticket → other = thread)
    (other : Thread) :
    ((state.setStage thread .idle).stage other).ticket ≠ some ticket := by
  by_cases hother : other = thread
  · subst hother
    simp [Stage.ticket]
  · rw [setStage_stage_other hother]
    exact fun hholds => hother (honly other hholds)

theorem only_holder_of_setStage {state : Shared Thread World} {thread : Thread}
    {stage : Stage World} {ticket : ℕ}
    (honly : ∀ other, (state.stage other).ticket = some ticket → other = thread)
    (other : Thread)
    (hholds : ((state.setStage thread stage).stage other).ticket = some ticket) :
    other = thread := by
  by_contra hother
  rw [setStage_stage_other hother] at hholds
  exact hother (honly other hholds)

theorem Account.moves {trace events : List Event} {state next : Shared Thread World}
    {thread : Thread} {ticket : ℕ} (haccounts : ∀ ticket, Account trace state ticket)
    (hmoves : Moves state thread next events) :
    Account (trace ++ events) next ticket := by
  have haccount := haccounts ticket
  cases hmoves with
  | submit cmd | registerHandler cmd handler | empty =>
      exact haccount.frame rfl Iff.rfl fun _ => Or.inl rfl
  | take cmd rest nowNs hidle hq =>
      by_cases hticket : ticket = state.tickets
      · subst hticket
        cases haccount with
        | untaken _ hhistory hholder =>
            refine .taken (by simp [Shared.setStage]) thread cmd _ nowNs ?_
              (setStage_stage_self _ _ _) (only_holder_of_setStage ?_)
            · simp [hhistory, Event.about]
            · exact fun other hholds => absurd hholds (hholder other)
        | taken hlt | running hlt | refused hlt | executed hlt => exact absurd hlt (lt_irrefl _)
      · refine haccount.frame ?_ ?_ (stage_frame_of_setStage ?_ ?_)
        · simp [Event.about, Ne.symm hticket]
        · simp only [Shared.setStage]
          omega
        · simp [hidle, Stage.ticket]
        · simp [Stage.ticket, Ne.symm hticket]
  | refuse held cmd handler nowNs result hstage hdispatch =>
      by_cases hticket : ticket = held
      · subst hticket
        obtain ⟨hlt, hhistory, honly⟩ := haccount.of_taken hstage
        refine .refused hlt cmd nowNs handler.isSome result ?_ ?_
          (no_holder_of_setStage_idle honly)
        · simp [hhistory, Event.about]
        · rcases dispatch_error_iff.1 hdispatch with hstale | ⟨hfresh, rfl, hresult⟩
          · exact Or.inl hstale
          · exact Or.inr ⟨hfresh, rfl, hresult⟩
      · refine haccount.frame ?_ Iff.rfl (stage_frame_of_setStage ?_ (by simp [Stage.ticket]))
        · simp [Event.about, Ne.symm hticket]
        · simp [hstage, Stage.ticket, Ne.symm hticket]
  | call held cmd handler nowNs hstage hfresh =>
      by_cases hticket : ticket = held
      · subst hticket
        obtain ⟨hlt, hhistory, honly⟩ := haccount.of_taken hstage
        refine .running hlt thread cmd nowNs (handler cmd) ?_ hfresh
          (setStage_stage_self _ _ _) (only_holder_of_setStage honly)
        simp [hhistory, Event.about]
      · refine haccount.frame ?_ Iff.rfl (stage_frame_of_setStage ?_ ?_)
        · simp [Event.about, Ne.symm hticket]
        · simp [hstage, Stage.ticket, Ne.symm hticket]
        · simp [Stage.ticket, Ne.symm hticket]
  | observe held cmd code world hstage =>
      by_cases hticket : ticket = held
      · subst hticket
        obtain ⟨nowNs, hlt, hfresh, hhistory, honly⟩ := haccount.of_running hstage
        exact .running hlt thread cmd nowNs (code world) (by simp [hhistory]) hfresh
          (setStage_stage_self _ _ _) (only_holder_of_setStage honly)
      · refine haccount.frame rfl Iff.rfl (stage_frame_of_setStage ?_ ?_)
        · simp [hstage, Stage.ticket, Ne.symm hticket]
        · simp [Stage.ticket, Ne.symm hticket]
  | submitInside held cmd inner code hstage =>
      by_cases hticket : ticket = held
      · subst hticket
        obtain ⟨nowNs, hlt, hfresh, hhistory, honly⟩ := haccount.of_running hstage
        refine .running hlt thread cmd nowNs (code (state.router.submit inner).2) ?_ hfresh
          (setStage_stage_self _ _ _) (only_holder_of_setStage honly)
        simp [hhistory, Event.about]
      · refine haccount.frame rfl Iff.rfl
          (@stage_frame_of_setStage _ _ _ { state with router := _ } _ _ _ ?_ ?_)
        · simp [hstage, Stage.ticket, Ne.symm hticket]
        · simp [Stage.ticket, Ne.symm hticket]
  | finish held cmd result hstage =>
      by_cases hticket : ticket = held
      · subst hticket
        obtain ⟨nowNs, hlt, hfresh, hhistory, honly⟩ := haccount.of_running hstage
        refine .executed hlt cmd nowNs result ?_ hfresh (no_holder_of_setStage_idle honly)
        simp [hhistory, Event.about]
      · refine haccount.frame ?_ Iff.rfl (stage_frame_of_setStage ?_ (by simp [Stage.ticket]))
        · simp [Event.about, Ne.symm hticket]
        · simp [hstage, Stage.ticket, Ne.symm hticket]

/-! ## Whole runs -/

theorem Delivery.run {cfg : CommandRouterConfig} {trace : List Event}
    {state : Shared Thread World}
    (hrun : Run system always (start cfg) trace state) :
    Delivery cfg trace state.router := by
  refine hrun.invariant (fun trace state => Delivery cfg trace state.router) ?_ ?_
  · exact ⟨rfl, Nat.zero_le _, by simp [start, create], rfl⟩
  · intro trace state label next events _ hdelivery _ hstep
    exact hdelivery.moves (moves_of_step hstep)

theorem Account.run {cfg : CommandRouterConfig} {trace : List Event}
    {state : Shared Thread World}
    (hrun : Run system always (start cfg) trace state) (ticket : ℕ) :
    Account trace state ticket := by
  refine hrun.invariant
    (fun trace state => ∀ ticket, Account trace state ticket) ?_ ?_ ticket
  · exact fun ticket => .untaken (Nat.zero_le _) rfl (by simp [start, Stage.ticket])
  · intro trace state label next events _ haccounts _ hstep ticket
    exact Account.moves haccounts (moves_of_step hstep)

def takenTickets (trace : List Event) : List ℕ :=
  trace.filterMap fun
    | .taken ticket _ _ _ => some ticket
    | _ => none

/-- Tickets are handed out in order, one for each command taken. -/
theorem takenTickets_run {cfg : CommandRouterConfig} {trace : List Event}
    {state : Shared Thread World}
    (hrun : Run system always (start cfg) trace state) :
    takenTickets trace = List.range state.tickets := by
  refine hrun.invariant
    (fun trace state => takenTickets trace = List.range state.tickets) rfl ?_
  intro trace state label next events _ htickets _ hstep
  simp only [takenTickets] at htickets ⊢
  cases moves_of_step hstep <;>
    simp [htickets, Shared.setStage, List.range_succ]

/-! ## The handler at the moment of dequeue -/

@[simp]
theorem hasNonEmpty_registered (cmd other : UInt16) (nonEmpty : Bool) (trace : List Event) :
    hasNonEmpty cmd (trace ++ [.registered other nonEmpty]) =
      if other = cmd then nonEmpty else hasNonEmpty cmd trace := by
  by_cases hsame : other = cmd <;> simp [hasNonEmpty, hsame]

/-- Only a registration changes what was registered last. -/
theorem hasNonEmpty_quiet {cmd : UInt16} {event : Event}
    (hquiet : ∀ other nonEmpty, event ≠ .registered other nonEmpty) (trace : List Event) :
    hasNonEmpty cmd (trace ++ [event]) = hasNonEmpty cmd trace := by
  cases event with
  | registered other nonEmpty => exact absurd rfl (hquiet other nonEmpty)
  | submitted | taken | called | completed => simp [hasNonEmpty]

/-- Every command taken was handled by what was registered last before it, if that was a
handler. -/
def HandledByLast (trace : List Event) : Prop :=
  ∀ before ticket cmd nowNs handled, before ++ [.taken ticket cmd nowNs handled] <+: trace →
    handled = hasNonEmpty cmd.command before

theorem HandledByLast.concat {trace : List Event} {event : Event} (hhandled : HandledByLast trace)
    (hevent : ∀ ticket cmd nowNs handled, event = .taken ticket cmd nowNs handled →
      handled = hasNonEmpty cmd.command trace) : HandledByLast (trace ++ [event]) := by
  intro before ticket cmd nowNs handled hbefore
  rcases List.prefix_concat_iff.1 hbefore with hlast | hearlier
  · obtain ⟨rfl, hsame⟩ := List.append_inj' hlast rfl
    exact hevent ticket cmd nowNs handled (List.singleton_inj.1 hsame).symm
  · exact hhandled before ticket cmd nowNs handled hearlier

/-- The table holds what was registered last, and commands are handled by it. -/
structure Registrations (trace : List Event)
    (router : CommandRouter (CommandHandler World)) : Prop where
  stored : ∀ cmd, (router.handlers cmd).join.isSome = hasNonEmpty cmd trace
  handled : HandledByLast trace

/-- A step that neither registers nor takes leaves both as they were. -/
theorem Registrations.quiet {trace : List Event}
    {router next : CommandRouter (CommandHandler World)} {event : Event}
    (hregistrations : Registrations trace router) (hsame : next.handlers = router.handlers)
    (hregistered : ∀ cmd nonEmpty, event ≠ .registered cmd nonEmpty)
    (htaken : ∀ ticket cmd nowNs handled, event ≠ .taken ticket cmd nowNs handled) :
    Registrations (trace ++ [event]) next where
  stored cmd := by rw [hsame, hasNonEmpty_quiet hregistered, hregistrations.stored]
  handled := hregistrations.handled.concat fun ticket cmd nowNs handled heq =>
    absurd heq (htaken ticket cmd nowNs handled)

theorem Registrations.moves {trace events : List Event} {state next : Shared Thread World}
    {thread : Thread} (hregistrations : Registrations trace state.router)
    (hmoves : Moves state thread next events) :
    Registrations (trace ++ events) next.router := by
  cases hmoves with
  | submit | submitInside => exact hregistrations.quiet (submit_handlers _ _) (by simp) (by simp)
  | refuse | call | finish => exact hregistrations.quiet rfl (by simp) (by simp)
  | empty | observe => rwa [List.append_nil]
  | registerHandler cmd handler =>
      refine ⟨fun other => ?_, hregistrations.handled.concat (by simp)⟩
      rw [hasNonEmpty_registered, ← hregistrations.stored]
      by_cases hsame : cmd = other
      · subst hsame
        simp [registerHandler]
      · simp [registerHandler, hsame, Function.update_of_ne (Ne.symm hsame)]
  | take cmd rest nowNs hidle hq =>
      refine ⟨fun other => ?_, hregistrations.handled.concat ?_⟩
      · rw [hasNonEmpty_quiet (by simp)]
        exact hregistrations.stored other
      · intro ticket front now handled heq
        obtain ⟨-, rfl, -, rfl⟩ := Event.taken.inj heq
        exact hregistrations.stored cmd.command

theorem Registrations.run {cfg : CommandRouterConfig} {trace : List Event}
    {state : Shared Thread World}
    (hrun : Run system always (start cfg) trace state) :
    Registrations trace state.router := by
  refine hrun.invariant (fun trace state => Registrations trace state.router) ?_ ?_
  · exact ⟨fun _ => rfl, by simp [HandledByLast]⟩
  · intro trace state label next events _ hregistrations _ hstep
    exact hregistrations.moves (moves_of_step hstep)

/-! ## The contract -/

def isCallOf (ticket : ℕ) : Event → Bool
  | .called other => other = ticket
  | _ => false

def isResultOf (ticket : ℕ) : Event → Bool
  | .completed other _ _ => other = ticket
  | _ => false

private theorem countP_eq_history {ticket : ℕ} {selected : Event → Bool}
    (habout : ∀ event, selected event = true → event.about ticket = true)
    (trace : List Event) :
    trace.countP selected = (history ticket trace).countP selected := by
  rw [history, List.countP_filter]
  congr 1
  funext event
  cases hselected : selected event with
  | false => simp
  | true => simp [habout event hselected]

theorem countP_isResultOf (ticket : ℕ) (trace : List Event) :
    trace.countP (isResultOf ticket) =
      (history ticket trace).countP (isResultOf ticket) :=
  countP_eq_history (fun event => by cases event <;> simp [isResultOf, Event.about]) trace

theorem countP_isCallOf (ticket : ℕ) (trace : List Event) :
    trace.countP (isCallOf ticket) = (history ticket trace).countP (isCallOf ticket) :=
  countP_eq_history (fun event => by cases event <;> simp [isCallOf, Event.about]) trace

theorem mem_history_of_about {ticket : ℕ} {trace : List Event} {event : Event}
    (hmem : event ∈ trace) (habout : event.about ticket = true) :
    event ∈ history ticket trace :=
  List.mem_filter.2 ⟨hmem, habout⟩

/-- What the callers of the router may rely on after any run. -/
structure RouterContract (cfg : CommandRouterConfig) (trace : List Event)
    (state : Shared Thread World) : Prop where
  bounded : state.router.q.length ≤ cfg.maxQueue
  identified : ∀ cmd ∈ state.router.q, cmd.commandId ≠ 0
  delivered : acceptedCommands trace = takenCommands trace ++ state.router.q
  numbered : takenTickets trace = List.range state.tickets
  registered : ∀ cmd, (state.router.handlers cmd).join.isSome = hasNonEmpty cmd trace
  handled : HandledByLast trace
  oneResult : ∀ ticket < state.tickets,
    (trace.countP (isResultOf ticket) = 1 ∧
      ∀ thread, (state.stage thread).ticket ≠ some ticket) ∨
    (trace.countP (isResultOf ticket) = 0 ∧
      ∃! thread, (state.stage thread).ticket = some ticket)
  ownResult : ∀ ticket cmd result, .completed ticket cmd result ∈ trace →
    ∃ nowNs handled, .taken ticket cmd nowNs handled ∈ trace
  calls : ∀ ticket cmd nowNs handled result,
    .taken ticket cmd nowNs handled ∈ trace → .completed ticket cmd result ∈ trace →
      trace.countP (isCallOf ticket) =
        if isExpired cmd nowNs = false ∧ handled = true then 1 else 0
  reasons : ∀ ticket cmd nowNs handled result,
    .taken ticket cmd nowNs handled ∈ trace → .completed ticket cmd result ∈ trace →
      (isExpired cmd nowNs = true → result = staleResult) ∧
      (isExpired cmd nowNs = false → handled = false → result = unsupportedResult)
  statuses : ∀ ticket cmd result, .completed ticket cmd result ∈ trace →
    result.status ≠ .none

omit [DecidableEq Thread] in
/-- A ticket's account settles everything the contract says about its result. -/
theorem Account.result {trace : List Event} {state : Shared Thread World} {ticket : ℕ}
    {cmd : CommandEnvelope} {result : CommandResult}
    (haccount : Account trace state ticket)
    (hcompleted : .completed ticket cmd result ∈ trace) :
    (∃ nowNs handled, .taken ticket cmd nowNs handled ∈ trace) ∧
      result.status ≠ .none ∧
      ∀ nowNs handled, .taken ticket cmd nowNs handled ∈ trace →
        trace.countP (isCallOf ticket) =
          (if isExpired cmd nowNs = false ∧ handled = true then 1 else 0) ∧
        (isExpired cmd nowNs = true → result = staleResult) ∧
        (isExpired cmd nowNs = false → handled = false → result = unsupportedResult) := by
  have hown := @mem_history_of_about ticket _ _ hcompleted (by simp [Event.about])
  have htaken : ∀ nowNs handled, .taken ticket cmd nowNs handled ∈ trace →
      Event.taken ticket cmd nowNs handled ∈ history ticket trace :=
    fun nowNs handled hmem => mem_history_of_about hmem (by simp [Event.about])
  have hsub : ∀ event ∈ history ticket trace, event ∈ trace :=
    fun event hmem => (List.mem_filter.1 hmem).1
  rw [countP_isCallOf]
  cases haccount with
  | untaken _ hhistory _ | taken _ _ _ _ _ hhistory | running _ _ _ _ _ hhistory =>
      simp [hhistory] at hown
  | refused _ cmd' now' handled' result' hhistory hreason _ =>
      rw [hhistory] at hown htaken hsub ⊢
      obtain ⟨rfl, rfl⟩ : cmd = cmd' ∧ result = result' := by simpa using hown
      refine ⟨⟨now', handled', hsub _ (by simp)⟩, ?_, ?_⟩
      · rcases hreason with ⟨-, rfl⟩ | ⟨-, -, rfl⟩ <;> simp [staleResult, unsupportedResult]
      · intro nowNs handled hmem
        obtain ⟨rfl, rfl⟩ : nowNs = now' ∧ handled = handled' := by
          simpa using htaken nowNs handled hmem
        rcases hreason with ⟨hstale, rfl⟩ | ⟨hfresh, rfl, rfl⟩
        · simp [isCallOf, hstale]
        · simp [isCallOf, hfresh]
  | executed _ cmd' now' result' hhistory hfresh _ =>
      rw [hhistory] at hown htaken hsub ⊢
      obtain ⟨rfl, rfl⟩ : cmd = cmd' ∧ result = settle result' := by simpa using hown
      refine ⟨⟨now', true, hsub _ (by simp)⟩, settle_status_ne_none _, ?_⟩
      intro nowNs handled hmem
      obtain ⟨rfl, rfl⟩ : nowNs = now' ∧ handled = true := by
        simpa using htaken nowNs handled hmem
      simp [isCallOf, hfresh]

omit [DecidableEq Thread] in
/-- A ticket that was handed out has a result, or one thread is working on it. -/
theorem Account.oneResult {trace : List Event} {state : Shared Thread World} {ticket : ℕ}
    (haccount : Account trace state ticket) (hticket : ticket < state.tickets) :
    (trace.countP (isResultOf ticket) = 1 ∧
      ∀ thread, (state.stage thread).ticket ≠ some ticket) ∨
    (trace.countP (isResultOf ticket) = 0 ∧
      ∃! thread, (state.stage thread).ticket = some ticket) := by
  rw [countP_isResultOf]
  cases haccount with
  | untaken hle => omega
  | taken _ thread _ _ _ hhistory hstage honly =>
      exact Or.inr ⟨by simp [hhistory, isResultOf], thread,
        by simp [hstage, Stage.ticket], honly⟩
  | running _ thread _ _ _ hhistory _ hstage honly =>
      exact Or.inr ⟨by simp [hhistory, isResultOf], thread,
        by simp [hstage, Stage.ticket], honly⟩
  | refused _ _ _ _ _ hhistory _ hholder =>
      exact Or.inl ⟨by simp [hhistory, isResultOf], hholder⟩
  | executed _ _ _ _ hhistory _ hholder =>
      exact Or.inl ⟨by simp [hhistory, isResultOf], hholder⟩

theorem routerContract_run {cfg : CommandRouterConfig} {trace : List Event}
    {state : Shared Thread World}
    (hrun : Run system always (start cfg) trace state) :
    RouterContract cfg trace state := by
  have hdelivery := Delivery.run hrun
  have haccount := Account.run hrun
  have hregistrations := Registrations.run hrun
  exact {
    bounded := hdelivery.bounded
    identified := hdelivery.identified
    delivered := hdelivery.ordered
    numbered := takenTickets_run hrun
    registered := hregistrations.stored
    handled := hregistrations.handled
    oneResult := fun ticket hticket => (haccount ticket).oneResult hticket
    ownResult := fun ticket cmd result hmem => ((haccount ticket).result hmem).1
    calls := fun ticket cmd nowNs handled result htaken hmem =>
      (((haccount ticket).result hmem).2.2 nowNs handled htaken).1
    reasons := fun ticket cmd nowNs handled result htaken hmem =>
      (((haccount ticket).result hmem).2.2 nowNs handled htaken).2
    statuses := fun ticket cmd result hmem => ((haccount ticket).result hmem).2.1 }

/-- A submit that is answered with a rejection leaves the queue and the handlers
as they were. -/
theorem router_eq_of_rejected {state next : Shared Thread World}
    {label : Thread × Call World} {events : List Event} {cmd : CommandEnvelope}
    {answer : CommandResult} (hstep : step state label = some (next, events))
    (hmem : .submitted cmd answer ∈ events) (hrejected : answer.status = .rejected) :
    next.router = state.router := by
  have hsubmit : ∀ inner, (state.router.submit inner).2 = answer →
      (state.router.submit inner).1 = state.router := by
    intro inner hanswer
    rcases submit_cases state.router inner with ⟨-, -, hqueued⟩ | ⟨hsame, -⟩
    · rw [hqueued] at hanswer
      simp [← hanswer, queuedResult] at hrejected
    · exact hsame
  cases moves_of_step hstep with
  | submit inner | submitInside ticket outer inner code hstage =>
      obtain ⟨rfl, hanswer⟩ : cmd = inner ∧ answer = (state.router.submit inner).2 := by
        simpa using hmem
      exact hsubmit cmd hanswer.symm
  | _ => simp at hmem

/-! ## Every command taken is carried to its result -/

/-- One own step inside `process_one`, from `earlier` to `later`. -/
def Proceeds (Thread World : Type) [DecidableEq Thread] (later earlier : Stage World) : Prop :=
  ∃ (state next : Shared Thread World) (thread : Thread) (world : World)
    (events : List Event), step state (thread, .proceed world) = some (next, events) ∧
      state.stage thread = earlier ∧ next.stage thread = later

theorem proceed_isSome {state : Shared Thread World} {thread : Thread}
    (hbusy : state.stage thread ≠ .idle) (world : World) :
    (step state (thread, .proceed world)).isSome = true := by
  cases hstage : state.stage thread with
  | idle => exact absurd hstage hbusy
  | taken ticket cmd handler nowNs =>
      simp only [step, hstage]
      split <;> rfl
  | running ticket cmd code => simp [step, hstage]

private theorem acc_idle :
    Acc (Proceeds Thread World) Stage.idle := by
  refine ⟨_, fun later hproceeds => ?_⟩
  obtain ⟨state, next, thread, world, events, hstep, hstage, -⟩ := hproceeds
  simp [step, hstage, outerStep] at hstep

private theorem acc_running (ticket : ℕ) (cmd : CommandEnvelope) (code : HandlerCode World) :
    Acc (Proceeds Thread World) (Stage.running ticket cmd code) := by
  induction code with
  | ret result =>
      refine ⟨_, fun later hproceeds => ?_⟩
      obtain ⟨state, next, thread, world, events, hstep, hstage, rfl⟩ := hproceeds
      simp only [step, hstage, handlerStep, Option.some.injEq, Prod.mk.injEq] at hstep
      obtain ⟨rfl, -⟩ := hstep
      simpa using acc_idle
  | observe code ih =>
      refine ⟨_, fun later hproceeds => ?_⟩
      obtain ⟨state, next, thread, world, events, hstep, hstage, rfl⟩ := hproceeds
      simp only [step, hstage, handlerStep, Option.some.injEq, Prod.mk.injEq] at hstep
      obtain ⟨rfl, -⟩ := hstep
      simpa using ih world
  | submit inner code ih =>
      refine ⟨_, fun later hproceeds => ?_⟩
      obtain ⟨state, next, thread, world, events, hstep, hstage, rfl⟩ := hproceeds
      simp only [step, hstage, handlerStep, Option.some.injEq, Prod.mk.injEq] at hstep
      obtain ⟨rfl, -⟩ := hstep
      simpa using ih _

/-- However its steps fall between those of others, a thread inside
`process_one` finishes. -/
theorem proceeds_wellFounded :
    WellFounded (Proceeds Thread World) := by
  refine ⟨fun stage => ?_⟩
  cases stage with
  | idle => exact acc_idle
  | running ticket cmd code => exact acc_running ticket cmd code
  | taken ticket cmd handler nowNs =>
      refine ⟨_, fun later hproceeds => ?_⟩
      obtain ⟨state, next, thread, world, events, hstep, hstage, rfl⟩ := hproceeds
      simp only [step, hstage] at hstep
      split at hstep <;>
        simp only [Option.some.injEq, Prod.mk.injEq] at hstep <;>
        obtain ⟨rfl, -⟩ := hstep
      · simpa using acc_idle
      · simpa using acc_running _ _ _

/-- After any run by any threads the contract holds, a rejected submit changes
nothing, and every command taken off the queue is carried to its result by
finitely many steps that nothing can block. -/
theorem router_runs_keep_contract (cfg : CommandRouterConfig) (trace : List Event)
    (state : Shared Thread World)
    (hrun : Run system always (start cfg) trace state) :
    RouterContract cfg trace state ∧
      (∀ label next events cmd answer, step state label = some (next, events) →
        .submitted cmd answer ∈ events → answer.status = .rejected →
          next.router = state.router) ∧
      (∀ thread, state.stage thread ≠ .idle →
        ∀ world, (step state (thread, .proceed world)).isSome = true) ∧
      WellFounded (Proceeds Thread World) :=
  ⟨routerContract_run hrun, fun _ _ _ _ _ => router_eq_of_rejected,
    fun _ => proceed_isSome, proceeds_wellFounded⟩

/-- A command that, when handled, submits its follower and reports nothing. -/
private def relay (id : UInt64) : CommandEnvelope :=
  { CommandEnvelope.default with commandId := id }

private def relayHandler (follower : UInt64) : CommandHandler Unit := fun _ =>
  .submit (relay follower) fun _ => .ret { queuedResult with status := .none }

private def relayTrace : List Event :=
  [.registered (relay 1).command true, .submitted (relay 1) queuedResult,
    .submitted (relay 2) queueFull, .taken 0 (relay 1) 5 true, .called 0,
    .submitted (relay 3) queuedResult,
    .completed 0 (relay 1) { queuedResult with status := .received }]

/-- Two threads, a queue of one place and a handler that submits from inside:
the second submit finds the queue full, the inner one does not. -/
theorem router_runs_keep_contract_reentrant :
    ∃ state : Shared Bool Unit,
      Run system always (start { maxQueue := 1 }) relayTrace state ∧
        RouterContract { maxQueue := 1 } relayTrace state := by
  have hexecute : ∃ state, execute system always
      (start { maxQueue := 1 } : Shared Bool Unit)
      [(false, .registerHandler (relay 1).command (some (relayHandler 3))),
        (true, .submit (relay 1)), (true, .submit (relay 2)), (false, .processOne 5),
        (false, .proceed ()), (false, .proceed ()), (false, .proceed ())] =
      some (state, relayTrace) := ⟨_, rfl⟩
  obtain ⟨state, hexecute⟩ := hexecute
  have hrun := run_of_execute hexecute
  exact ⟨state, hrun, (router_runs_keep_contract _ _ state hrun).1⟩

end ArcravenUgv.RouterRuns
