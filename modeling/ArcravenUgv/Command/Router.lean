import ArcravenUgv.Command.Types

/-!
# The command router

`command/CommandRouter.cpp`.  Everything the router does to its queue and its
handler table happens in sections locked by one mutex; each such section is one
function here.  `processOne` locks only to take the front command and to copy
its handler, so its remaining steps are separate functions: `dispatch` decides
between rejection and the handler, `settle` is applied to what the handler
returned.
-/

namespace ArcravenUgv.Command

open ArcravenUgv.Enums
open ArcravenUgv.Decimal

structure CommandRouterConfig where
  maxQueue : ℕ := 256
  deriving DecidableEq, Repr

/-- `handlers` is the map from command numbers to `std::function` objects; a
stored function object may itself be empty. -/
structure CommandRouter (Handler : Type*) where
  cfg : CommandRouterConfig
  q : List CommandEnvelope
  handlers : UInt16 → Option (Option Handler)

variable {Handler : Type*}

namespace CommandRouter

def create (cfg : CommandRouterConfig) : CommandRouter Handler where
  cfg := cfg
  q := []
  handlers := fun _ => none

def registerHandler (router : CommandRouter Handler) (cmd : UInt16)
    (handler : Option Handler) : CommandRouter Handler :=
  { router with handlers := Function.update router.handlers cmd (some handler) }

def hasHandler (router : CommandRouter Handler) (cmd : UInt16) : Bool :=
  (router.handlers cmd).isSome

def queueFull : CommandResult where
  status := .rejected
  rejectReason := .busy
  message := ascii "queue full"

def commandIdZero : CommandResult where
  status := .rejected
  rejectReason := .invalidPayload
  message := ascii "command_id=0"

def queuedResult : CommandResult where
  status := .accepted
  rejectReason := .none
  message := []

def submit (router : CommandRouter Handler) (cmd : CommandEnvelope) :
    CommandRouter Handler × CommandResult :=
  if router.cfg.maxQueue ≤ router.q.length then (router, queueFull)
  else if cmd.commandId = 0 then (router, commandIdZero)
  else ({ router with q := router.q ++ [cmd] }, queuedResult)

/-- The locked section of `processOne`: the front command and a copy of its
handler, empty when none is stored or the stored one is empty. -/
def takeFront (router : CommandRouter Handler) :
    Option (CommandEnvelope × Option Handler × CommandRouter Handler) :=
  match router.q with
  | [] => none
  | cmd :: rest =>
      some (cmd, (router.handlers cmd.command).join, { router with q := rest })

def staleResult : CommandResult where
  status := .rejected
  rejectReason := .staleCommand
  message := ascii "expired"

def unsupportedResult : CommandResult where
  status := .rejected
  rejectReason := .unsupported
  message := ascii "no handler"

/-- `processOne` after the lock is released: a rejection, or the handler to
call. -/
def dispatch (cmd : CommandEnvelope) (handler : Option Handler) (nowNs : UInt64) :
    Except CommandResult Handler :=
  if isExpired cmd nowNs then .error staleResult
  else
    match handler with
    | none => .error unsupportedResult
    | some handler => .ok handler

/-- `processOne` after the handler returned. -/
def settle (result : CommandResult) : CommandResult :=
  if result.status = .none then { result with status := .received } else result

def queued (router : CommandRouter Handler) : ℕ := router.q.length

/-! ## One lemma for each operation -/

theorem submit_of_accepted {router : CommandRouter Handler}
    {cmd : CommandEnvelope} (hroom : router.q.length < router.cfg.maxQueue)
    (hid : cmd.commandId ≠ 0) :
    router.submit cmd = ({ router with q := router.q ++ [cmd] }, queuedResult) := by
  rw [submit, if_neg (by omega), if_neg hid]

/-- Either the command is queued and answered `Accepted`, or the router is left
as it was and the answer is a rejection. -/
theorem submit_cases (router : CommandRouter Handler) (cmd : CommandEnvelope) :
    (router.q.length < router.cfg.maxQueue ∧ cmd.commandId ≠ 0 ∧
      router.submit cmd = ({ router with q := router.q ++ [cmd] }, queuedResult)) ∨
    ((router.submit cmd).1 = router ∧ (router.submit cmd).2.status = .rejected) := by
  unfold submit
  split_ifs with hfull hid
  · exact Or.inr ⟨rfl, rfl⟩
  · exact Or.inr ⟨rfl, rfl⟩
  · exact Or.inl ⟨by omega, hid, rfl⟩

@[simp]
theorem submit_cfg (router : CommandRouter Handler) (cmd : CommandEnvelope) :
    (router.submit cmd).1.cfg = router.cfg := by
  unfold submit
  split_ifs <;> rfl

@[simp]
theorem submit_handlers (router : CommandRouter Handler) (cmd : CommandEnvelope) :
    (router.submit cmd).1.handlers = router.handlers := by
  unfold submit
  split_ifs <;> rfl

theorem takeFront_eq_some_iff {router next : CommandRouter Handler}
    {cmd : CommandEnvelope} {handler : Option Handler} :
    router.takeFront = some (cmd, handler, next) ↔
      router.q = cmd :: next.q ∧ handler = (router.handlers cmd.command).join ∧
        next = { router with q := next.q } := by
  unfold takeFront
  cases hq : router.q with
  | nil => simp
  | cons front rest =>
      simp only [Option.some.injEq, Prod.mk.injEq, List.cons.injEq]
      constructor
      · rintro ⟨rfl, rfl, rfl⟩
        exact ⟨⟨rfl, rfl⟩, rfl, rfl⟩
      · rintro ⟨⟨rfl, rfl⟩, rfl, hnext⟩
        exact ⟨rfl, rfl, hnext.symm⟩

theorem takeFront_eq_none_iff {router : CommandRouter Handler} :
    router.takeFront = none ↔ router.q = [] := by
  unfold takeFront
  cases router.q <;> simp

theorem dispatch_ok_iff {cmd : CommandEnvelope} {handler : Option Handler}
    {nowNs : UInt64} {admitted : Handler} :
    dispatch cmd handler nowNs = .ok admitted ↔
      isExpired cmd nowNs = false ∧ handler = some admitted := by
  unfold dispatch
  split_ifs with hexpired
  · simp [hexpired]
  · cases handler <;> simp [hexpired]

/-- A command is refused before any handler runs because it is stale, or, when
it is not, because it has no handler. -/
theorem dispatch_error_iff {cmd : CommandEnvelope} {handler : Option Handler}
    {nowNs : UInt64} {result : CommandResult} :
    dispatch cmd handler nowNs = .error result ↔
      (isExpired cmd nowNs = true ∧ result = staleResult) ∨
      (isExpired cmd nowNs = false ∧ handler = none ∧ result = unsupportedResult) := by
  unfold dispatch
  split_ifs with hexpired
  · simp [hexpired, eq_comm]
  · cases handler <;> simp [hexpired, eq_comm]

theorem settle_status_ne_none (result : CommandResult) :
    (settle result).status ≠ .none := by
  unfold settle
  split_ifs with hnone
  · simp
  · exact hnone

end CommandRouter

end ArcravenUgv.Command
