import ArcravenUgv.Lib.Delimited
import ArcravenUgv.Lib.Sections
import ArcravenUgv.Subsystems.CommandLine
import ArcravenUgv.Utils.Logger

/-!
# The lines of the log

`utils/Logger.cpp` with what it writes.  Any number of threads call `log`, `flush`
and `set_min_level`; a call of `log` is formatted outside the mutex and written, one
statement to a step, under it.  Console and log file then hold the same lines in the
same order, and a fatal message that is flushed is the last.
-/

namespace ArcravenUgv.LogLines

open ArcravenUgv.Command
open ArcravenUgv.CommandLine
open ArcravenUgv.Decimal
open ArcravenUgv.Delimited
open ArcravenUgv.Logger
open ArcravenUgv.Runs
open ArcravenUgv.Sections

/-- `Logger::Config`; the log file is `State.file`. -/
structure Options extends Logger.Config where
  console : Bool := true
  ansiColors : Bool := false
  includeThreadId : Bool := true
  includeSource : Bool := true
  deriving DecidableEq, Repr

/-! ## The text of a line -/

def levelTag : Level → Bytes
  | .trace => ascii "TRACE"
  | .debug => ascii "DEBUG"
  | .info => ascii "INFO "
  | .warn => ascii "WARN "
  | .error => ascii "ERROR"
  | .fatal => ascii "FATAL"

def levelColor : Level → Bytes
  | .trace => 27 :: ascii "[2m"
  | .debug => 27 :: ascii "[36m"
  | .info => 27 :: ascii "[32m"
  | .warn => 27 :: ascii "[33m"
  | .error => 27 :: ascii "[31m"
  | .fatal => 27 :: ascii "[1;31m"

def resetColor : Bytes := 27 :: ascii "[0m"

/-- A reading of the clock in local time. -/
structure LocalTime where
  year : ℕ
  month : ℕ
  day : ℕ
  hour : ℕ
  minute : ℕ
  second : ℕ
  ms : ℕ
  deriving DecidableEq, Repr

/-- A number with zeros before it up to a width. -/
def padded (width number : ℕ) : Bytes :=
  List.replicate (width - (decimal number).length) 48 ++ decimal number

def nowLocalIso8601 (now : LocalTime) : Bytes :=
  decimal now.year ++ ascii "-" ++ padded 2 now.month ++ ascii "-" ++ padded 2 now.day ++
    ascii " " ++ padded 2 now.hour ++ ascii ":" ++ padded 2 now.minute ++ ascii ":" ++
    padded 2 now.second ++ ascii "." ++ padded 3 now.ms

/-- Where the message comes from. -/
def sourceText (opts : Options) (file : Option Bytes) (line : ℤ) : Bytes :=
  match file with
  | some file =>
      if opts.includeSource ∧ 0 < line then
        file ++ ascii ":" ++ decimal line.toNat ++ ascii " "
      else []
  | none => []

/-- The line without its newline. -/
def lineText (opts : Options) (now : LocalTime) (threadId : Bytes) (lvl : Level) (msg : Bytes)
    (file : Option Bytes) (line : ℤ) : Bytes :=
  nowLocalIso8601 now ++ ascii " " ++ ascii "[" ++ levelTag lvl ++ ascii "] " ++
    (if opts.includeThreadId then ascii "tid=" ++ threadId ++ ascii " " else []) ++
    sourceText opts file line ++ ascii "- " ++ msg

/-- `Logger::format_line`. -/
def formatLine (opts : Options) (now : LocalTime) (threadId : Bytes) (lvl : Level) (msg : Bytes)
    (file : Option Bytes) (line : ℤ) : Bytes :=
  lineText opts now threadId lvl msg file line ++ [newline]

theorem not_mem_padded {byte : UInt8} (hbyte : isDigit byte = false) (width number : ℕ) :
    byte ∉ padded width number := by
  intro hmem
  rcases List.mem_append.1 hmem with hmem | hmem
  · rw [List.eq_of_mem_replicate hmem] at hbyte
    simp [isDigit] at hbyte
  · exact not_mem_decimal hbyte hmem

theorem newline_not_mem_nowLocalIso8601 (now : LocalTime) :
    newline ∉ nowLocalIso8601 now := by
  have hdigit : isDigit newline = false := rfl
  simp [nowLocalIso8601, not_mem_padded hdigit, not_mem_decimal hdigit]
  decide

/-- A line breaks only where its thread's id, its message or its file does. -/
theorem newline_not_mem_lineText {opts : Options} {now : LocalTime} {threadId : Bytes}
    {lvl : Level} {msg : Bytes} {file : Option Bytes} {line : ℤ} (hthread : newline ∉ threadId)
    (hmsg : newline ∉ msg) (hfile : ∀ name ∈ file, newline ∉ name) :
    newline ∉ lineText opts now threadId lvl msg file line := by
  have hdigit : isDigit newline = false := rfl
  have htag : newline ∉ levelTag lvl := by cases lvl <;> decide
  have hstamp := newline_not_mem_nowLocalIso8601 now
  have htext : ∀ text ∈ [ascii " ", ascii "[", ascii "] ", ascii "tid=", ascii ":", ascii "- "],
      newline ∉ text := by decide
  simp only [List.mem_cons, List.not_mem_nil, or_false, forall_eq_or_imp, forall_eq] at htext
  obtain ⟨hspace, hopen, hclose, htid, hcolon, hdash⟩ := htext
  have hid : newline ∉
      if opts.includeThreadId then ascii "tid=" ++ threadId ++ ascii " " else [] := by
    split_ifs <;> simp [*]
  have hsource : newline ∉ sourceText opts file line := by
    cases file with
    | none => simp [sourceText]
    | some name =>
        have hname := hfile name rfl
        simp only [sourceText]
        split_ifs <;> simp [not_mem_decimal hdigit, *]
  simp only [lineText, List.mem_append, not_or]
  exact ⟨⟨⟨⟨⟨⟨⟨⟨hstamp, hspace⟩, hopen⟩, htag⟩, hclose⟩, hid⟩, hsource⟩, hdash⟩, hmsg⟩

/-! ## The calls -/

/-- A call of `log` that passes the level, with its line, or of `flush`. -/
inductive Call
  | log (lvl : Level) (line : Bytes)
  | flush
  deriving DecidableEq, Repr

inductive Write
  | cerr (text : Bytes)
  | flushCerr
  | file (text : Bytes)
  | flushFile
  deriving DecidableEq, Repr

section Scripts

variable (opts : Options) (isOpen : Bool)

/-- `Logger::flush`. -/
def flush : List (Instr Write) :=
  [.lock] ++
    (if opts.console then [.write .flushCerr] else []) ++
    (if isOpen then [.write .flushFile] else []) ++
    [.unlock]

/-- `Logger::log` from its mutex on. -/
def log (lvl : Level) (line : Bytes) : List (Instr Write) :=
  [.lock] ++
    (if opts.console then
      (if opts.ansiColors then
        [.write (.cerr (levelColor lvl)), .write (.cerr line), .write (.cerr resetColor)]
      else [.write (.cerr line)]) ++
        (if opts.flushAlways then [.write .flushCerr] else [])
    else []) ++
    (if isOpen then
      [.write (.file line)] ++ (if opts.flushAlways then [.write .flushFile] else [])
    else []) ++
    (if lvl = .fatal ∧ opts.flushAlways then flush opts isOpen else []) ++
    [.unlock]

def script : Call → List (Instr Write)
  | .log lvl line => log opts isOpen lvl line
  | .flush => flush opts isOpen

/-- What a call writes before it unlocks its mutex or locks it again. -/
def body : Call → List Write
  | .log lvl line =>
      (if opts.console then
        (if opts.ansiColors then [.cerr (levelColor lvl), .cerr line, .cerr resetColor]
        else [.cerr line]) ++ (if opts.flushAlways then [.flushCerr] else [])
      else []) ++
        (if isOpen then
          .file line :: (if opts.flushAlways then [.flushFile] else [])
        else [])
  | .flush =>
      (if opts.console then [.flushCerr] else []) ++ (if isOpen then [.flushFile] else [])

/-- A fatal message that is flushed locks the mutex under the mutex. -/
def Relocks : Call → Prop
  | .log lvl _ => lvl = .fatal ∧ opts.flushAlways = true
  | .flush => False

theorem sectioned : Sectioned (script opts isOpen) (body opts isOpen) (Relocks opts) where
  plain := by
    rintro (⟨lvl, line⟩ | _) hplain
    · rw [Relocks] at hplain
      simp only [script, log, body, if_neg hplain]
      split_ifs <;> rfl
    · simp only [script, flush, body]
      split_ifs <;> rfl
  nested := by
    rintro (⟨lvl, line⟩ | _) hrelocks
    · rw [Relocks] at hrelocks
      simp only [script, log, flush, body, if_pos hrelocks]
      split_ifs <;> exact ⟨_, rfl⟩
    · exact hrelocks.elim

/-- A statement of the logger as a use of `Logger::mu_`. -/
def mutexOf : Instr Write → Option (Mutex.Instr Mu)
  | .lock => some (.lock .logger)
  | .unlock => some (.unlock .logger)
  | .write _ => none

/-- The mutexes `log` uses are those of `Logger.log`. -/
theorem mutexes_log {lvl : Level} (hpasses : ¬ lvl.wire < opts.minLevel.wire) (line : Bytes) :
    (log opts isOpen lvl line).filterMap mutexOf = Logger.log opts.toConfig lvl := by
  simp only [log, flush, Logger.log, Logger.flush, if_neg hpasses]
  split_ifs <;> rfl

theorem mutexes_flush : (flush opts isOpen).filterMap mutexOf = Logger.flush := by
  simp only [flush, Logger.flush]
  split_ifs <;> rfl

end Scripts

/-! ## The streams -/

/-- What a stream has written, and what it has in its buffer.  A bad stream takes
nothing more. -/
structure Sink where
  good : Bool := true
  written : Bytes
  buffer : Bytes := []
  deriving DecidableEq, Repr

def Sink.put (sink : Sink) (text : Bytes) : Sink :=
  if sink.good then { sink with buffer := sink.buffer ++ text } else sink

/-- A part of the buffer is written, all of it at most. -/
def Sink.spill (sink : Sink) (count : ℕ) : Sink :=
  if sink.good then
    { sink with
      written := sink.written ++ sink.buffer.take count
      buffer := sink.buffer.drop count }
  else sink

def Sink.flush (sink : Sink) : Sink := sink.spill sink.buffer.length

def Sink.fail (sink : Sink) : Sink := { sink with good := false }

/-- A stream has a prefix of the text put to it, all of it as long as it is good. -/
structure Sink.Holds (sink : Sink) (text : Bytes) : Prop where
  before : sink.written ++ sink.buffer <+: text
  whole : sink.good = true → sink.written ++ sink.buffer = text

theorem Sink.Holds.put {sink : Sink} {text : Bytes} (hholds : sink.Holds text) (more : Bytes) :
    (sink.put more).Holds (text ++ more) := by
  unfold Sink.put
  split_ifs with hgood
  · have hwhole : sink.written ++ (sink.buffer ++ more) = text ++ more := by
      rw [← List.append_assoc, hholds.whole hgood]
    exact ⟨hwhole ▸ List.prefix_refl _, fun _ => hwhole⟩
  · exact ⟨hholds.before.trans (List.prefix_append _ _), fun h => absurd h hgood⟩

theorem Sink.Holds.spill {sink : Sink} {text : Bytes} (hholds : sink.Holds text) (count : ℕ) :
    (sink.spill count).Holds text := by
  unfold Sink.spill
  split_ifs with hgood
  · have hsame : sink.written ++ sink.buffer.take count ++ sink.buffer.drop count =
        sink.written ++ sink.buffer := by rw [List.append_assoc, List.take_append_drop]
    exact ⟨hsame ▸ hholds.before, fun _ => hsame.trans (hholds.whole hgood)⟩
  · exact hholds

theorem Sink.Holds.flush {sink : Sink} {text : Bytes} (hholds : sink.Holds text) :
    sink.flush.Holds text := hholds.spill _

theorem Sink.Holds.fail {sink : Sink} {text : Bytes} (hholds : sink.Holds text) :
    sink.fail.Holds text := ⟨hholds.before, fun h => by cases h⟩

/-! ## Any number of threads -/

variable {Thread : Type*}

/-- `mu` is `mu_` with the threads at it; `cerr` flushes after every output; `file` is
`file_` where it is open. -/
structure State (Thread : Type*) where
  mu : Sections.State Thread Call Write
  minLevel : Level
  cerr : Sink
  file : Option Sink

def State.apply (state : State Thread) : Write → State Thread
  | .cerr text => { state with cerr := (state.cerr.put text).flush }
  | .flushCerr => { state with cerr := state.cerr.flush }
  | .file text => { state with file := state.file.map (·.put text) }
  | .flushFile => { state with file := state.file.map (·.flush) }

/-- Besides the calls and the threads' own steps: a file buffer is written without a
flush, and a stream turns bad. -/
inductive Label (Thread : Type*)
  | log (thread : Thread) (lvl : Level) (msg : Bytes) (file : Option Bytes) (line : ℤ)
      (now : LocalTime)
  | flush (thread : Thread)
  | setMinLevel (lvl : Level)
  | move (thread : Thread)
  | spill (count : ℕ)
  | failCerr
  | failFile

abbrev LogEvent (Thread : Type*) := Sections.Event Thread Call Write

def State.moved [DecidableEq Thread] (opts : Options) (state : State Thread)
    (label : Sections.Label Thread Call) : Option (State Thread × List (LogEvent Thread)) :=
  match Sections.step (script opts state.file.isSome) state.mu label with
  | none => none
  | some (mu, events) =>
      some ((writes events).foldl State.apply { state with mu := mu }, events)

def step [DecidableEq Thread] (opts : Options) (threadId : Thread → Bytes)
    (state : State Thread) :
    Label Thread → Option (State Thread × List (LogEvent Thread))
  | .log thread lvl msg file line now =>
      if lvl.wire < state.minLevel.wire then
        if state.mu.todo thread = [] then some (state, []) else none
      else
        state.moved opts
          (.begin thread (.log lvl (formatLine opts now (threadId thread) lvl msg file line)))
  | .flush thread => state.moved opts (.begin thread .flush)
  | .setMinLevel lvl => some ({ state with minLevel := lvl }, [])
  | .move thread => state.moved opts (.move thread)
  | .spill count => some ({ state with file := state.file.map (·.spill count) }, [])
  | .failCerr => some ({ state with cerr := state.cerr.fail }, [])
  | .failFile => some ({ state with file := state.file.map (·.fail) }, [])

def system [DecidableEq Thread] (opts : Options) (threadId : Thread → Bytes) :
    System (State Thread) (Label Thread) (LogEvent Thread) where
  step := step opts threadId

/-- A new logger, on a log file that holds some text if it has one. -/
def opened (opts : Options) (file : Option Bytes) : State Thread where
  mu := idle .flush
  minLevel := opts.minLevel
  cerr := { written := [] }
  file := file.map fun text => { written := text }

/-- The call a label makes, unless its level is below the minimum. -/
def Label.call? (opts : Options) (threadId : Thread → Bytes) :
    Label Thread → Option (Thread × Call)
  | .log thread lvl msg file line now =>
      some (thread, .log lvl (formatLine opts now (threadId thread) lvl msg file line))
  | .flush thread => some (thread, .flush)
  | _ => none

/-- What a step does. -/
inductive Moves [DecidableEq Thread] (opts : Options) (state : State Thread) :
    State Thread → List (LogEvent Thread) → Prop
  | moved (label : Sections.Label Thread Call) (mu : Sections.State Thread Call Write)
      (events : List (LogEvent Thread))
      (hstep : Sections.step (script opts state.file.isSome) state.mu label = some (mu, events)) :
      Moves opts state ((writes events).foldl State.apply { state with mu := mu }) events
  | below : Moves opts state state []
  | setMinLevel (lvl : Level) : Moves opts state { state with minLevel := lvl } []
  | spill (count : ℕ) :
      Moves opts state { state with file := state.file.map (·.spill count) } []
  | failCerr : Moves opts state { state with cerr := state.cerr.fail } []
  | failFile : Moves opts state { state with file := state.file.map (·.fail) } []

section Moves

variable [DecidableEq Thread] {opts : Options} {threadId : Thread → Bytes}
variable {state next : State Thread} {label : Label Thread} {events : List (LogEvent Thread)}

/-- Only a call is seen to begin. -/
theorem begin_of_mem_starts {script : Call → List (Instr Write)}
    {mu after : Sections.State Thread Call Write} {label : Sections.Label Thread Call}
    (hstep : Sections.step script mu label = some (after, events)) {thread : Thread} {call : Call}
    (hentry : (thread, call) ∈ starts events) : label = .begin thread call := by
  cases label with
  | begin caller made =>
      simp only [Sections.step] at hstep
      split_ifs at hstep
      cases hstep
      cases List.mem_singleton.1 hentry
      rfl
  | move mover =>
      simp only [Sections.step] at hstep
      split at hstep
      · cases hstep
      · split_ifs at hstep
        cases hstep
        cases hentry
      · cases hstep
        cases hentry
      · cases hstep
        cases hentry

theorem moves_of_moved {label : Sections.Label Thread Call}
    (hmoved : state.moved opts label = some (next, events)) : Moves opts state next events := by
  unfold State.moved at hmoved
  split at hmoved
  · cases hmoved
  · cases hmoved
    exact .moved label _ _ ‹_›

theorem moves_of_step (hstep : step opts threadId state label = some (next, events)) :
    Moves opts state next events := by
  cases label with
  | log thread lvl msg file line now =>
      simp only [step] at hstep
      split_ifs at hstep
      · cases hstep
        exact .below
      · exact moves_of_moved hstep
  | flush thread | move thread => exact moves_of_moved hstep
  | setMinLevel lvl =>
      cases hstep
      exact .setMinLevel lvl
  | spill count =>
      cases hstep
      exact .spill count
  | failCerr =>
      cases hstep
      exact .failCerr
  | failFile =>
      cases hstep
      exact .failFile

theorem begin_of_moved {label : Sections.Label Thread Call}
    (hmoved : state.moved opts label = some (next, events)) {thread : Thread} {call : Call}
    (hentry : (thread, call) ∈ starts events) : label = .begin thread call := by
  unfold State.moved at hmoved
  split at hmoved
  · cases hmoved
  · cases hmoved
    exact begin_of_mem_starts ‹_› hentry

/-- The call that begins is the label's. -/
theorem mem_call_of_mem_starts (hstep : step opts threadId state label = some (next, events))
    {entry : Thread × Call} (hentry : entry ∈ starts events) :
    entry ∈ label.call? opts threadId := by
  obtain ⟨caller, call⟩ := entry
  cases label with
  | log thread lvl msg file line now =>
      simp only [step] at hstep
      split_ifs at hstep
      · cases hstep
        cases hentry
      · cases begin_of_moved hstep hentry
        rfl
  | flush thread =>
      cases begin_of_moved hstep hentry
      rfl
  | move thread => cases begin_of_moved hstep hentry
  | _ =>
      cases hstep
      cases hentry

end Moves

/-! ## What the streams hold -/

def Write.cerrText : Write → Bytes
  | .cerr text => text
  | _ => []

def Write.fileText : Write → Bytes
  | .file text => text
  | _ => []

/-- What has been put to the file since the last flush. -/
def Write.settle (pending : Bytes) : Write → Bytes
  | .file text => pending ++ text
  | .flushFile => []
  | _ => pending

/-- What the streams hold after some writes. -/
structure Streams (initial : Option Bytes) (written : List Write) (state : State Thread) :
    Prop where
  cerr : state.cerr.Holds (written.flatMap Write.cerrText)
  unbuffered : state.cerr.buffer = [] ∨ state.cerr.good = false
  isOpen : state.file.isSome = initial.isSome
  file : ∀ sink ∈ state.file,
    sink.Holds (initial.getD [] ++ written.flatMap Write.fileText)
  settled : ∀ sink ∈ state.file, sink.good = true →
    sink.buffer <:+ written.foldl Write.settle []

theorem streams_opened (opts : Options) (file : Option Bytes) :
    Streams file [] (opened opts file : State Thread) where
  cerr := ⟨List.prefix_refl _, fun _ => rfl⟩
  unbuffered := .inl rfl
  isOpen := by simp [opened]
  file := fun sink hsink => by
    obtain ⟨text, rfl, rfl⟩ := Option.map_eq_some_iff.1 hsink
    exact ⟨by simp, fun _ => by simp⟩
  settled := fun sink hsink _ => by
    obtain ⟨text, rfl, rfl⟩ := Option.map_eq_some_iff.1 hsink
    exact List.nil_suffix

section Streams

variable {initial : Option Bytes} {written : List Write} {state : State Thread}

/-- The file changes in a way that keeps what it holds. -/
theorem Streams.file_step (hstreams : Streams initial written state) (change : Sink → Sink)
    {more : List Write} (hcerr : more.flatMap Write.cerrText = [])
    (hholds : ∀ sink text, sink.Holds text →
      (change sink).Holds (text ++ more.flatMap Write.fileText))
    (hsettled : ∀ sink pending, (change sink).good = true → sink.good = true ∧
      (sink.buffer <:+ pending → (change sink).buffer <:+ more.foldl Write.settle pending)) :
    Streams initial (written ++ more) { state with file := state.file.map change } where
  cerr := by simpa [hcerr] using hstreams.cerr
  unbuffered := hstreams.unbuffered
  isOpen := by simpa using hstreams.isOpen
  file := fun sink hsink => by
    obtain ⟨old, hold, rfl⟩ := Option.map_eq_some_iff.1 hsink
    simpa using hholds old _ (hstreams.file old hold)
  settled := fun sink hsink hgood => by
    obtain ⟨old, hold, rfl⟩ := Option.map_eq_some_iff.1 hsink
    obtain ⟨hwas, hsuffix⟩ := hsettled old (written.foldl Write.settle []) hgood
    rw [List.foldl_append]
    exact hsuffix (hstreams.settled old hold hwas)

/-- The console changes in a way that keeps what it holds. -/
theorem Streams.cerr_step (hstreams : Streams initial written state) {sink : Sink}
    {more : List Write} (hfile : more.flatMap Write.fileText = [])
    (hsettle : ∀ pending, more.foldl Write.settle pending = pending)
    (hholds : sink.Holds (written.flatMap Write.cerrText ++ more.flatMap Write.cerrText))
    (hunbuffered : sink.buffer = [] ∨ sink.good = false) :
    Streams initial (written ++ more) { state with cerr := sink } where
  cerr := by simpa using hholds
  unbuffered := hunbuffered
  isOpen := hstreams.isOpen
  file := by simpa [hfile] using hstreams.file
  settled := by simpa [List.foldl_append, hsettle] using hstreams.settled

theorem Sink.flush_unbuffered (sink : Sink) :
    sink.flush.buffer = [] ∨ sink.flush.good = false := by
  unfold Sink.flush Sink.spill
  cases hgood : sink.good <;> simp [hgood]

theorem Sink.good_of_spill {sink : Sink} {count : ℕ} (hgood : (sink.spill count).good = true) :
    sink.good = true := by
  unfold Sink.spill at hgood
  split_ifs at hgood <;> assumption

theorem Streams.apply (hstreams : Streams initial written state) (write : Write) :
    Streams initial (written ++ [write]) (state.apply write) := by
  cases write with
  | cerr text =>
      refine hstreams.cerr_step rfl (fun _ => rfl) ?_ (Sink.flush_unbuffered _)
      simpa [Write.cerrText] using (hstreams.cerr.put text).flush
  | flushCerr =>
      refine hstreams.cerr_step rfl (fun _ => rfl) ?_ (Sink.flush_unbuffered _)
      simpa [Write.cerrText] using hstreams.cerr.flush
  | file text =>
      refine hstreams.file_step (·.put text) rfl (fun sink whole hholds => ?_)
        fun sink pending hgood => ?_
      · simpa [Write.fileText] using hholds.put text
      · unfold Sink.put at hgood ⊢
        split_ifs at hgood ⊢ with hwas
        · refine ⟨hwas, fun hsuffix => ?_⟩
          obtain ⟨before, rfl⟩ := hsuffix
          exact ⟨before, by simp [Write.settle]⟩
        · exact absurd hgood hwas
  | flushFile =>
      refine hstreams.file_step (·.flush) rfl (fun sink whole hholds => ?_)
        fun sink pending hgood => ?_
      · simpa [Write.fileText] using hholds.flush
      · have hwas := Sink.good_of_spill hgood
        exact ⟨hwas, fun _ => by simp [Sink.flush, Sink.spill, hwas, Write.settle]⟩

theorem Streams.foldl (hstreams : Streams initial written state) (more : List Write) :
    Streams initial (written ++ more) (more.foldl State.apply state) := by
  induction more generalizing written state with
  | nil => simpa using hstreams
  | cons write more ih => simpa using ih (hstreams.apply write)

end Streams

section Run

variable [DecidableEq Thread] {opts : Options} {threadId : Thread → Bytes}
variable {initial : Option Bytes} {trace : List (LogEvent Thread)} {state : State Thread}

theorem Streams.moves {next : State Thread} {events : List (LogEvent Thread)}
    (hstreams : Streams initial (writes trace) state)
    (hmoves : Moves opts state next events) :
    Streams initial (writes (trace ++ events)) next := by
  rw [writes_append]
  cases hmoves with
  | moved label mu events hstep =>
      have hsame : Streams initial (writes trace) { state with mu := mu } :=
        ⟨hstreams.cerr, hstreams.unbuffered, hstreams.isOpen, hstreams.file, hstreams.settled⟩
      exact hsame.foldl (writes events)
  | below => simpa using hstreams
  | setMinLevel lvl =>
      have hsame : Streams initial (writes trace) { state with minLevel := lvl } :=
        ⟨hstreams.cerr, hstreams.unbuffered, hstreams.isOpen, hstreams.file, hstreams.settled⟩
      simpa using hsame
  | spill count =>
      refine hstreams.file_step (·.spill count) rfl (fun sink text hholds => ?_)
        fun sink pending hgood => ?_
      · simpa using hholds.spill count
      · have hwas := Sink.good_of_spill hgood
        refine ⟨hwas, fun hsuffix => ?_⟩
        simp only [Sink.spill, if_pos hwas]
        exact (List.drop_suffix _ _).trans hsuffix
  | failCerr =>
      refine hstreams.cerr_step rfl (fun _ => rfl) ?_ (.inr rfl)
      simpa using hstreams.cerr.fail
  | failFile =>
      refine hstreams.file_step Sink.fail rfl (fun sink text hholds => ?_)
        fun sink pending hgood => ?_
      · simpa using hholds.fail
      · cases hgood

theorem Streams.run (hrun : Run (system opts threadId) always (opened opts initial) trace state) :
    Streams initial (writes trace) state := by
  refine hrun.invariant (fun trace state => Streams initial (writes trace) state)
    (streams_opened opts initial) ?_
  intro trace state label next events _ hstreams _ hstep
  exact hstreams.moves (moves_of_step hstep)

omit [DecidableEq Thread] in
theorem mu_foldl (written : List Write) (state : State Thread) :
    (written.foldl State.apply state).mu = state.mu := by
  induction written generalizing state with
  | nil => rfl
  | cons write written ih => rw [List.foldl_cons, ih]; cases write <;> rfl

/-- The threads at the mutex are those of the library. -/
theorem run_mu {later : List (LogEvent Thread)} {next : State Thread}
    (hrun : Run (system opts threadId) always (opened opts initial) trace state)
    (hlater : Run (system opts threadId) always state later next) :
    Run (Sections.system (script opts initial.isSome)) always state.mu later next.mu := by
  refine hlater.invariant (fun later next =>
    Run (Sections.system (script opts initial.isSome)) always state.mu later next.mu) .start ?_
  intro later middle label next events hmiddle hmu _ hstep
  have hopen := (Streams.run (hrun.append hmiddle)).isOpen
  cases moves_of_step hstep with
  | moved label mu events hsections =>
      rw [mu_foldl]
      rw [hopen] at hsections
      exact .step hmu trivial hsections
  | _ => simpa using hmu

/-- What all calls of the labels satisfy, all calls made satisfy. -/
theorem starts_run {allowed : State Thread → Label Thread → Prop}
    {holds : Thread × Call → Prop}
    (hallowed : ∀ state label, allowed state label →
      ∀ entry ∈ label.call? opts threadId, holds entry)
    (hrun : Run (system opts threadId) allowed (opened opts initial) trace state) :
    ∀ entry ∈ starts trace, holds entry := by
  refine hrun.invariant (fun trace _ => ∀ entry ∈ starts trace, holds entry)
    (fun entry hentry => by cases hentry) ?_
  intro trace state label next events _ hinv hlabel hstep entry hentry
  rw [starts_append] at hentry
  exact (List.mem_append.1 hentry).elim (hinv entry) fun hentry =>
    hallowed state label hlabel entry (mem_call_of_mem_starts hstep hentry)

end Run

/-! ## The log -/

/-- The text of a call on the console. -/
def consoleText (opts : Options) : Call → Bytes
  | .log lvl line =>
      if opts.console then
        if opts.ansiColors then levelColor lvl ++ line ++ resetColor else line
      else []
  | .flush => []

/-- The text of a call in the log file. -/
def fileLine : Call → Bytes
  | .log _ line => line
  | .flush => []

theorem cerrText_body (opts : Options) (isOpen : Bool) (call : Call) :
    (body opts isOpen call).flatMap Write.cerrText = consoleText opts call := by
  cases call <;> simp only [body, consoleText] <;> split_ifs <;> simp [Write.cerrText]

theorem fileText_body (opts : Options) (call : Call) :
    (body opts true call).flatMap Write.fileText = fileLine call := by
  cases call <;> simp only [body, fileLine] <;> split_ifs <;> simp [Write.fileText]

/-- Where every message is flushed, a call leaves nothing in the buffer. -/
theorem settle_body {opts : Options} (hflush : opts.flushAlways = true) (call : Call) :
    (body opts true call).foldl Write.settle [] = [] := by
  cases call <;> simp only [body, hflush] <;> split_ifs <;> rfl

theorem settle_flatMap_body {opts : Options} (hflush : opts.flushAlways = true)
    (calls : List (Thread × Call)) :
    (calls.flatMap fun entry => body opts true entry.2).foldl Write.settle [] = [] := by
  induction calls with
  | nil => rfl
  | cons entry calls ih => rw [List.flatMap_cons, List.foldl_append, settle_body hflush, ih]

theorem length_settle_le (written : List Write) (pending : Bytes) :
    (written.foldl Write.settle pending).length ≤
      pending.length + (written.flatMap Write.fileText).length := by
  induction written generalizing pending with
  | nil => simp
  | cons write written ih =>
      rw [List.foldl_cons, List.flatMap_cons, List.length_append]
      have hwrite : (write.settle pending).length ≤ pending.length + write.fileText.length := by
        cases write <;> simp [Write.settle, Write.fileText]
      have hrest := ih (write.settle pending)
      omega

theorem flatMap_text {text : Write → Bytes} {line : Call → Bytes} {opts : Options}
    {isOpen : Bool} (hbody : ∀ call, (body opts isOpen call).flatMap text = line call)
    (calls : List (Thread × Call)) :
    (calls.flatMap fun entry => body opts isOpen entry.2).flatMap text =
      calls.flatMap fun entry => line entry.2 := by
  simp only [List.flatMap_assoc, hbody]

/-- The line of a call is formatted from its message. -/
def Formatted (opts : Options) (threadId : Thread → Bytes) : Thread × Call → Prop
  | (thread, .log lvl line) => ∃ now msg file number,
      line = formatLine opts now (threadId thread) lvl msg file number
  | (_, .flush) => True

/-- Console and log file hold whole lines, one behind the other in the order in which
their calls got the mutex, but for the line that is being written. -/
structure Logged [DecidableEq Thread] (opts : Options) (threadId : Thread → Bytes)
    (initial : Option Bytes) (trace : List (LogEvent Thread)) (state : State Thread) : Prop where
  console : state.cerr.written <+: (entries trace).flatMap fun entry => consoleText opts entry.2
  consoleWhole : state.cerr.good = true → state.mu.owner = none →
    state.cerr.written = (entries trace).flatMap fun entry => consoleText opts entry.2
  file : ∀ sink ∈ state.file, sink.written ++ sink.buffer <+:
    initial.getD [] ++ (entries trace).flatMap fun entry => fileLine entry.2
  fileWhole : ∀ sink ∈ state.file, sink.good = true → state.mu.owner = none →
    sink.written ++ sink.buffer =
      initial.getD [] ++ (entries trace).flatMap fun entry => fileLine entry.2
  durable : ∀ sink ∈ state.file, sink.good = true → opts.flushAlways = true →
    initial.getD [] ++ ((finished trace state.mu).flatMap fun entry => fileLine entry.2) <+:
      sink.written
  order : ∀ thread, callsOf thread (starts trace) =
    callsOf thread (entries trace) ++ waiting state.mu thread
  formatted : ∀ entry ∈ starts trace, Formatted opts threadId entry

section Serial

variable {opts : Options} {initial : Option Bytes}
variable {trace : List (LogEvent Thread)} {state : State Thread}

theorem initial_of_file {sink : Sink} (hstreams : Streams initial (writes trace) state)
    (hsink : sink ∈ state.file) : initial.isSome = true := by
  rw [← hstreams.isOpen, hsink]
  rfl

/-- What is put to the file, call by call. -/
theorem fileText_writes
    (hserial : Serial (script opts true) (body opts true) (Relocks opts) trace state.mu) :
    ((entries trace).flatMap fun entry => fileLine entry.2) =
      (writes trace).flatMap Write.fileText ++ (unwritten state.mu).flatMap Write.fileText := by
  rw [← List.flatMap_append, ← hserial.flatMap_body, flatMap_text (fileText_body opts)]

theorem cerrText_writes {isOpen : Bool}
    (hserial : Serial (script opts isOpen) (body opts isOpen) (Relocks opts) trace state.mu) :
    ((entries trace).flatMap fun entry => consoleText opts entry.2) =
      (writes trace).flatMap Write.cerrText ++ (unwritten state.mu).flatMap Write.cerrText := by
  rw [← List.flatMap_append, ← hserial.flatMap_body, flatMap_text (cerrText_body opts isOpen)]

theorem unwritten_of_free (howner : state.mu.owner = none) : unwritten state.mu = [] := by
  simp [unwritten, howner]

theorem cerr_written (hstreams : Streams initial (writes trace) state) :
    state.cerr.written <+: (writes trace).flatMap Write.cerrText ∧
      (state.cerr.good = true →
        state.cerr.written = (writes trace).flatMap Write.cerrText) := by
  refine ⟨(List.prefix_append _ _).trans hstreams.cerr.before, fun hgood => ?_⟩
  have hempty := hstreams.unbuffered.resolve_right (by simp [hgood])
  simpa [hempty] using hstreams.cerr.whole hgood

/-- With every message flushed, the lines of the calls that have returned are on the
disk. -/
theorem durable_of_streams (hflush : opts.flushAlways = true)
    (hserial : Serial (script opts true) (body opts true) (Relocks opts) trace state.mu)
    (hstreams : Streams initial (writes trace) state) {sink : Sink} (hsink : sink ∈ state.file)
    (hgood : sink.good = true) :
    initial.getD [] ++ ((finished trace state.mu).flatMap fun entry => fileLine entry.2) <+:
      sink.written := by
  obtain ⟨done, hwrites, -⟩ := hserial.writes_eq
  have hwhole := (hstreams.file sink hsink).whole hgood
  have hbuffer := (hstreams.settled sink hsink hgood).length_le
  rw [hwrites, List.foldl_append, settle_flatMap_body hflush] at hbuffer
  have hdone := length_settle_le done []
  rw [hwrites, List.flatMap_append, flatMap_text (fileText_body opts), ← List.append_assoc]
    at hwhole
  refine List.prefix_of_prefix_length_le (List.prefix_append _ _)
    (hwhole ▸ List.prefix_append _ _) ?_
  have hlength := congrArg List.length hwhole
  simp only [List.length_append, List.length_nil] at hlength hdone ⊢
  omega

end Serial

section Logged

variable [DecidableEq Thread] {opts : Options} {threadId : Thread → Bytes}
variable {initial : Option Bytes} {trace : List (LogEvent Thread)} {state : State Thread}

theorem serial_run (hrun : Run (system opts threadId) always (opened opts initial) trace state) :
    Serial (script opts initial.isSome) (body opts initial.isSome) (Relocks opts) trace
      state.mu :=
  Serial.run (sectioned opts initial.isSome) (run_mu .start hrun)

theorem file_whole (hrun : Run (system opts threadId) always (opened opts initial) trace state)
    (howner : state.mu.owner = none) {sink : Sink} (hsink : sink ∈ state.file)
    (hgood : sink.good = true) :
    sink.written ++ sink.buffer =
      initial.getD [] ++ (entries trace).flatMap fun entry => fileLine entry.2 := by
  have hserial := serial_run hrun
  rw [initial_of_file (Streams.run hrun) hsink] at hserial
  rw [fileText_writes hserial, unwritten_of_free howner, List.flatMap_nil, List.append_nil]
  exact ((Streams.run hrun).file sink hsink).whole hgood

theorem ordered_run (hrun : Run (system opts threadId) always (opened opts initial) trace state) :
    Ordered trace state.mu :=
  Ordered.run (sectioned opts initial.isSome) (run_mu .start hrun)

/-- Whatever the threads call, console and log file hold the same whole lines in the
same order, each thread's in the order of its calls, but for the line that is being
written. -/
theorem streams_hold_lines (opts : Options) (threadId : Thread → Bytes) (initial : Option Bytes)
    {trace : List (LogEvent Thread)} {state : State Thread}
    (hrun : Run (system opts threadId) always (opened opts initial) trace state) :
    Logged opts threadId initial trace state where
  console := by
    rw [cerrText_writes (serial_run hrun)]
    exact (cerr_written (Streams.run hrun)).1.trans (List.prefix_append _ _)
  consoleWhole := fun hgood howner => by
    rw [cerrText_writes (serial_run hrun), unwritten_of_free howner,
      (cerr_written (Streams.run hrun)).2 hgood]
    simp
  file := fun sink hsink => by
    have hserial := serial_run hrun
    rw [initial_of_file (Streams.run hrun) hsink] at hserial
    rw [fileText_writes hserial, ← List.append_assoc]
    exact ((Streams.run hrun).file sink hsink).before.trans (List.prefix_append _ _)
  fileWhole := fun sink hsink hgood howner => file_whole hrun howner hsink hgood
  durable := fun sink hsink hgood hflush => by
    have hserial := serial_run hrun
    rw [initial_of_file (Streams.run hrun) hsink] at hserial
    exact durable_of_streams hflush hserial (Streams.run hrun) hsink hgood
  order := ordered_run hrun
  formatted := starts_run (fun state label _ entry hentry => by
    cases label with
    | log thread lvl msg file line now =>
        cases hentry
        exact ⟨now, msg, file, line, rfl⟩
    | flush thread =>
        cases hentry
        trivial
    | _ => cases hentry) hrun

theorem stuck_iff_fatal
    (hserial : Serial (script opts initial.isSome) (body opts initial.isSome) (Relocks opts)
      trace state.mu) :
    Stuck (script opts initial.isSome) state.mu ↔
      opts.flushAlways = true ∧ unwritten state.mu = [] ∧
        ∃ thread line, (thread, Call.log .fatal line) ∈ entries trace := by
  rw [hserial.stuck_iff (sectioned opts initial.isSome)]
  constructor
  · rintro ⟨⟨⟨thread, call⟩, hentry, hrelocks⟩, hwritten⟩
    cases call with
    | log lvl line =>
        obtain ⟨rfl, hflush⟩ := hrelocks
        exact ⟨hflush, hwritten, thread, line, hentry⟩
    | flush => exact hrelocks.elim
  · rintro ⟨hflush, hwritten, thread, line, hentry⟩
    exact ⟨⟨_, hentry, rfl, hflush⟩, hwritten⟩

/-- Behind a fatal message that is flushed nothing enters. -/
theorem last_of_fatal (hflush : opts.flushAlways = true)
    (hrun : Run (system opts threadId) always (opened opts initial) trace state)
    {thread : Thread} {line : Bytes} (hentry : (thread, Call.log .fatal line) ∈ entries trace)
    {later : List (LogEvent Thread)} {next : State Thread}
    (hlater : Run (system opts threadId) always state later next) :
    entries later = [] ∧ next.mu.owner = some thread ∧ next.mu.todo thread ≠ [] := by
  have hrelocks : Relocks opts (.log .fatal line) := ⟨rfl, hflush⟩
  have hstays : (thread, Call.log .fatal line) ∈ entries (trace ++ later) := by
    rw [entries_append]
    exact List.mem_append_left _ hentry
  obtain ⟨-, howner, rest, htodo⟩ := (serial_run (hrun.append hlater)).relocked hstays hrelocks
  exact ⟨entries_eq_nil_of_relocked (sectioned opts initial.isSome) (run_mu .start hrun)
    (run_mu hrun hlater) hentry hrelocks, howner, by simp [htodo]⟩

/-- Once the owner has nothing left to write, a flushed file has everything on the
disk. -/
theorem written_of_unwritten (hflush : opts.flushAlways = true)
    (hrun : Run (system opts threadId) always (opened opts initial) trace state)
    (hwritten : unwritten state.mu = []) {sink : Sink} (hsink : sink ∈ state.file)
    (hgood : sink.good = true) :
    sink.written = initial.getD [] ++ (entries trace).flatMap fun entry => fileLine entry.2 := by
  have hserial := serial_run hrun
  have hstreams := Streams.run hrun
  rw [initial_of_file hstreams hsink] at hserial
  have hbuffer := hstreams.settled sink hsink hgood
  have hbodies := hserial.flatMap_body
  rw [hwritten, List.append_nil] at hbodies
  rw [← hbodies, settle_flatMap_body hflush, List.suffix_nil] at hbuffer
  have hwhole := (hstreams.file sink hsink).whole hgood
  rw [hbuffer, List.append_nil] at hwhole
  rw [fileText_writes hserial, hwritten, List.flatMap_nil, List.append_nil, hwhole]

/-- A fatal message that is flushed is the last line: its thread keeps the mutex and
never returns, and nobody enters after it.  The threads hang there, with the line on
the disk while the file's stream is good, and nowhere else. -/
theorem fatal_line_is_last (opts : Options) (threadId : Thread → Bytes) (initial : Option Bytes)
    {trace : List (LogEvent Thread)} {state : State Thread}
    (hrun : Run (system opts threadId) always (opened opts initial) trace state) :
    (Stuck (script opts initial.isSome) state.mu ↔
      opts.flushAlways = true ∧ unwritten state.mu = [] ∧
        ∃ thread line, (thread, Call.log .fatal line) ∈ entries trace) ∧
    (Stuck (script opts initial.isSome) state.mu → ∀ sink ∈ state.file, sink.good = true →
      sink.written = initial.getD [] ++ (entries trace).flatMap fun entry => fileLine entry.2) ∧
    (opts.flushAlways = true →
      ∀ thread line, (thread, Call.log .fatal line) ∈ entries trace →
        (∃ earlier, entries trace = earlier ++ [(thread, Call.log .fatal line)]) ∧
          ∀ later next, Run (system opts threadId) always state later next →
            entries later = [] ∧ next.mu.owner = some thread ∧ next.mu.todo thread ≠ []) := by
  have hserial := serial_run hrun
  have hstuck := stuck_iff_fatal hserial
  refine ⟨hstuck, fun hhangs sink hsink hgood => ?_, fun hflush thread line hentry => ?_⟩
  · obtain ⟨hflush, hwritten, -⟩ := hstuck.1 hhangs
    exact written_of_unwritten hflush hrun hwritten hsink hgood
  · obtain ⟨⟨earlier, hsplit, -⟩, -⟩ := hserial.relocked hentry ⟨rfl, hflush⟩
    exact ⟨⟨earlier, hsplit⟩, fun later next hlater => last_of_fatal hflush hrun hentry hlater⟩

/-- A message on one line. -/
def Label.OneLine : Label Thread → Prop
  | .log _ _ msg file _ _ => newline ∉ msg ∧ ∀ name ∈ file, newline ∉ name
  | _ => True

instance : (label : Label Thread) → Decidable label.OneLine
  | .log _ _ msg file _ _ =>
      inferInstanceAs (Decidable (newline ∉ msg ∧ ∀ name ∈ file, newline ∉ name))
  | .flush _ | .setMinLevel _ | .move _ | .spill _ | .failCerr | .failFile =>
      inferInstanceAs (Decidable True)

/-- A call that writes one line. -/
def Call.OneLine : Call → Prop
  | .log _ line => ∃ text, line = text ++ [newline] ∧ newline ∉ text
  | .flush => True

/-- The line of a call without its newline. -/
def Call.text? : Call → Option Bytes
  | .log _ line => some line.dropLast
  | .flush => none

omit [DecidableEq Thread] in
theorem segments_fileLine {calls : List (Thread × Call)}
    (hlines : ∀ entry ∈ calls, entry.2.OneLine) :
    segments newline (calls.flatMap fun entry => fileLine entry.2) =
      calls.filterMap fun entry => entry.2.text? := by
  induction calls with
  | nil => rfl
  | cons entry calls ih =>
      have hrest := ih fun other hother => hlines other (List.mem_cons_of_mem _ hother)
      obtain ⟨thread, call⟩ := entry
      cases call with
      | flush => simpa [fileLine, Call.text?] using hrest
      | log lvl line =>
          obtain ⟨text, rfl, hfree⟩ := hlines _ (List.mem_cons_self ..)
          have htext : (Call.log lvl (text ++ [newline])).text? = some text := by simp [Call.text?]
          rw [List.flatMap_cons, fileLine, List.append_assoc, List.singleton_append,
            segments_append_delim hfree, hrest, List.filterMap_cons]
          simp only [htext]

/-- Where no message breaks its line, the log file read line by line is what it was
before and one line for every call of `log`, in the order of the calls. -/
theorem log_reads_back (opts : Options) (threadId : Thread → Bytes) (before : Bytes)
    (hthread : ∀ thread, newline ∉ threadId thread) (hbefore : Terminated newline before)
    {trace : List (LogEvent Thread)} {state : State Thread}
    (hrun : Run (system opts threadId) (fun _ label => label.OneLine)
      (opened opts (some before)) trace state)
    (howner : state.mu.owner = none) {sink : Sink} (hsink : sink ∈ state.file)
    (hgood : sink.good = true) :
    segments newline (sink.written ++ sink.buffer) =
      segments newline before ++ (entries trace).filterMap fun entry => entry.2.text? := by
  have hordered := ordered_run hrun.unrestricted
  have hlines : ∀ entry ∈ starts trace, entry.2.OneLine := by
    refine starts_run (fun state label hlabel entry hentry => ?_) hrun
    cases label with
    | log thread lvl msg file line now =>
        cases hentry
        exact ⟨_, rfl, newline_not_mem_lineText (hthread thread) hlabel.1 hlabel.2⟩
    | flush thread =>
        cases hentry
        trivial
    | _ => cases hentry
  rw [file_whole hrun.unrestricted howner hsink hgood, Option.getD_some,
    segments_append_of_terminated hbefore,
    segments_fileLine fun entry hentry => hlines entry (hordered.mem_starts hentry)]

end Logged

/-! ## Two threads -/

private def noon : LocalTime := ⟨2024, 6, 1, 12, 0, 0, 5⟩

private def twoIds (thread : Fin 2) : Bytes := decimal thread.val

/-- A thread calls `log` while the other one is writing its line. -/
private def twoCalls (second : Level) : List (Label (Fin 2)) :=
  [.log 0 .info (ascii "up") (some (ascii "main.cpp")) 7 noon, .move 0, .move 0,
    .log 1 second (ascii "down") none 0 noon, .move 0, .move 0, .spill 3, .move 0, .move 0,
    .move 1, .move 1, .move 1, .move 1, .move 1]

private def firstText : Bytes :=
  ascii "2024-06-01 12:00:00.005 [INFO ] tid=0 main.cpp:7 - up"

private def secondText : Bytes := ascii "2024-06-01 12:00:00.005 [WARN ] tid=1 - down"

private def fatalText : Bytes := ascii "2024-06-01 12:00:00.005 [FATAL] tid=1 - down"

/-- The owner of the mutex, and the log file. -/
private def shown (state : State (Fin 2)) : Option (Fin 2) × Option Sink :=
  (state.mu.owner, state.file)

private def bothLogged (lvl : Level) (text : Bytes) : List (LogEvent (Fin 2)) :=
  let first := Call.log .info (firstText ++ [newline])
  let second := Call.log lvl (text ++ [newline])
  [.began 0 first, .entered 0 first, .wrote (.cerr (firstText ++ [newline])),
    .began 1 second, .wrote .flushCerr, .wrote (.file (firstText ++ [newline])),
    .wrote .flushFile, .entered 1 second, .wrote (.cerr (text ++ [newline])),
    .wrote .flushCerr, .wrote (.file (text ++ [newline])), .wrote .flushFile]

private def bothLines : Bytes := firstText ++ newline :: (secondText ++ [newline])

private theorem exists_bothLogged :
    ∃ state, Run (system {} twoIds) (fun _ label => label.OneLine) (opened {} (some []))
      (bothLogged .warn secondText) state ∧
        shown state = (none, some { written := bothLines }) :=
  exists_run_of_execute _ _ _ (twoCalls .warn ++ [.move 1]) shown (by decide +kernel)

theorem streams_hold_lines_two :
    ∃ state : State (Fin 2),
      Run (system {} twoIds) always (opened {} (some [])) (bothLogged .warn secondText) state ∧
        Logged {} twoIds (some []) (bothLogged .warn secondText) state := by
  obtain ⟨state, hrun, -⟩ := exists_bothLogged
  exact ⟨state, hrun.unrestricted, streams_hold_lines {} twoIds (some []) hrun.unrestricted⟩

theorem fatal_line_is_last_two :
    ∃ state : State (Fin 2),
      Run (system {} twoIds) always (opened {} (some [])) (bothLogged .fatal fatalText) state ∧
        Stuck (script {} true) state.mu ∧
        ∀ later next, Run (system {} twoIds) always state later next → entries later = [] := by
  obtain ⟨state, hrun, hwritten⟩ := exists_run_of_execute (system {} twoIds) always
    (opened {} (some [])) (twoCalls .fatal) (fun state => unwritten state.mu)
    (show _ = some (bothLogged .fatal fatalText, []) by decide +kernel)
  have hentry : (1, Call.log .fatal (fatalText ++ [newline])) ∈
      entries (bothLogged .fatal fatalText) := by decide +kernel
  obtain ⟨hstuck, -, hlast⟩ := fatal_line_is_last {} twoIds (some []) hrun
  exact ⟨state, hrun, hstuck.2 ⟨rfl, hwritten, 1, _, hentry⟩, fun later next hlater =>
    ((hlast rfl 1 _ hentry).2 later next hlater).1⟩

theorem log_reads_back_two :
    ∃ state : State (Fin 2),
      Run (system {} twoIds) (fun _ label => label.OneLine) (opened {} (some []))
          (bothLogged .warn secondText) state ∧
        shown state = (none, some { written := bothLines }) ∧
        segments newline bothLines = [firstText, secondText] := by
  obtain ⟨state, hrun, hshown⟩ := exists_bothLogged
  refine ⟨state, hrun, hshown, ?_⟩
  obtain ⟨howner, hfile⟩ := Prod.mk.inj hshown
  have hback := log_reads_back {} twoIds []
    (fun thread => not_mem_decimal rfl) (.inl rfl) hrun howner hfile rfl
  rw [List.append_nil] at hback
  rw [hback]
  decide +kernel

end ArcravenUgv.LogLines
