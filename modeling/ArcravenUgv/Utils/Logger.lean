import ArcravenUgv.Lib.Mutex

/-!
# The mutexes of the logger

`utils/Logger.cpp` as the mutexes it locks and unlocks, in its order.  Where a
line is written and what it looks like does not depend on them.
-/

namespace ArcravenUgv.Logger

open ArcravenUgv.Mutex

inductive Level
  | trace
  | debug
  | info
  | warn
  | error
  | fatal
  deriving DecidableEq, Repr

def Level.wire : Level → UInt8
  | .trace => 0
  | .debug => 1
  | .info => 2
  | .warn => 3
  | .error => 4
  | .fatal => 5

/-- The members of `Logger::Config` that `log` branches on around its mutex. -/
structure Config where
  minLevel : Level := .info
  flushAlways : Bool := true
  deriving DecidableEq, Repr

/-- `Logger::mu_`, `g_logger_mu`, `EStopLatch::mu_` and `CommandRouter::mu_`. -/
inductive Mu
  | logger
  | globalLogger
  | estop
  | router
  deriving DecidableEq, Repr

/-- `Logger::flush`. -/
def flush : List (Instr Mu) := [.lock .logger, .unlock .logger]

/-- `Logger::log`. -/
def log (cfg : Config) (lvl : Level) : List (Instr Mu) :=
  if lvl.wire < cfg.minLevel.wire then []
  else
    [.lock .logger] ++
      (if lvl = .fatal ∧ cfg.flushAlways = true then flush else []) ++
      [.unlock .logger]

/-- `logger()`. -/
def logger : List (Instr Mu) := [.lock .globalLogger, .unlock .globalLogger]

/-- `ARC_LOG_INFO` and its siblings: `logger()`, then the message, then `log`. -/
def arcLog (cfg : Config) (lvl : Level) (message : List (Instr Mu)) : List (Instr Mu) :=
  logger ++ message ++ log cfg lvl

/-! ## Which calls hold one mutex at a time -/

/-- One mutex at a time, and no step. -/
structure Quiet (script : List (Instr Mu)) : Prop where
  leaf : Leaf script
  free : .act ∉ script

theorem quiet_nil : Quiet [] := ⟨rfl, by simp⟩

theorem Quiet.append {before after : List (Instr Mu)} (hbefore : Quiet before)
    (hafter : Quiet after) : Quiet (before ++ after) where
  leaf := hbefore.leaf.append hafter.leaf
  free := by simp [hbefore.free, hafter.free]

/-- `log` locks its mutex once unless it flushes after a fatal message. -/
theorem quiet_log {cfg : Config} {lvl : Level}
    (hflush : ¬ (lvl = .fatal ∧ cfg.flushAlways = true)) : Quiet (log cfg lvl) := by
  unfold log
  rw [if_neg hflush]
  split_ifs
  · exact quiet_nil
  · exact ⟨by decide, by decide⟩

theorem quiet_arcLog {cfg : Config} {lvl : Level} {message : List (Instr Mu)}
    (hflush : ¬ (lvl = .fatal ∧ cfg.flushAlways = true)) (hmessage : Quiet message) :
    Quiet (arcLog cfg lvl message) := by
  have hlogger : Quiet logger := ⟨by decide, by decide⟩
  exact (hlogger.append hmessage).append (quiet_log hflush)

/-- A fatal message passes every level, and its flush locks the mutex that `log`
holds. -/
theorem log_fatal {cfg : Config} (hflush : cfg.flushAlways = true) :
    log cfg .fatal =
      [.lock .logger] ++ [.lock .logger, .unlock .logger, .unlock .logger] := by
  have hpasses : ¬ Level.fatal.wire < cfg.minLevel.wire := by
    cases cfg.minLevel <;> decide
  simp [log, hpasses, hflush, flush]

end ArcravenUgv.Logger
