import ArcravenUgv.Config.ReadLines

/-!
# One client and the bridge

A single client writes lines into an empty `commands.in`, each as two appends,
while the core runs.  When `pump_rx` meets a text whose newline is not there
yet, it moves its offset one byte past the end of the file; the newline is the
next byte to arrive.
-/

namespace ArcravenUgv.OneClient

open ArcravenUgv.Enums
open ArcravenUgv.Command
open ArcravenUgv.Decimal
open ArcravenUgv.Delimited
open ArcravenUgv.CommandLine
open ArcravenUgv.Bridge
open ArcravenUgv.Runs
open ArcravenUgv.Runtime
open ArcravenUgv.ReadLines

/-- The appends of a client: the text of each line and its newline. -/
def appends (lines : List Bytes) : List Bytes :=
  lines.flatMap fun line => [line, [newline]]

/-- A client makes the next append, and nobody else has written the file. -/
def NextAppend (lines : List Bytes) (core : Core) (label : Thread × World) : Prop :=
  label.1 = .client → ∃ written, written ++ [label.2.chunk] <+: appends lines ∧
    core.shared.commandsIn = written.flatten

/-- The file opens when `pump_rx` opens it. -/
def NextOpened (lines : List Bytes) (core : Core) (label : Thread × World) : Prop :=
  NextAppend lines core label ∧
    (label.1 = .io → core.io = .opening → label.2.opened = true)

/-- Newline-free lines that are not empty. -/
def Proper (lines : List Bytes) : Prop := ∀ line ∈ lines, line ≠ [] ∧ newline ∉ line

/-- The lines `pump_rx` has taken off the file, over all its calls. -/
def consumedLines (trace : List Event) (core : Core) : List Bytes :=
  (doneLines trace ++ inBody core.io).map Prod.snd

/-! ## The file -/

section File

variable {lines written : List Bytes} {chunk : Bytes}

theorem Proper.tail {line : Bytes} (hproper : Proper (line :: lines)) : Proper lines :=
  fun other hother => hproper other (List.mem_cons_of_mem _ hother)

theorem appends_cons (line : Bytes) (lines : List Bytes) :
    appends (line :: lines) = line :: [newline] :: appends lines := rfl

/-- What has been written so far is nothing, a text without its newline, or a
whole line and more. -/
theorem written_cases {line : Bytes} (hwritten : written <+: appends (line :: lines)) :
    written = [] ∨ written = [line] ∨
      ∃ later, written = line :: [newline] :: later ∧ later <+: appends lines := by
  rw [appends_cons] at hwritten
  rcases written with _ | ⟨first, _ | ⟨second, later⟩⟩
  · exact Or.inl rfl
  · obtain ⟨rfl, -⟩ := List.cons_prefix_cons.1 hwritten
    exact Or.inr (Or.inl rfl)
  · obtain ⟨hfirst, hrest⟩ := List.cons_prefix_cons.1 hwritten
    obtain ⟨hsecond, hlater⟩ := List.cons_prefix_cons.1 hrest
    exact Or.inr (Or.inr ⟨later, by rw [hfirst, hsecond], hlater⟩)

/-- The lines in the file are the first of the client's lines. -/
theorem segments_written (hproper : Proper lines) (hwritten : written <+: appends lines) :
    segments newline written.flatten <+: lines := by
  induction lines generalizing written with
  | nil =>
      obtain rfl : written = [] := List.prefix_nil.1 hwritten
      exact List.nil_prefix
  | cons line lines ih =>
      obtain ⟨hne, hfree⟩ := hproper line (by simp)
      rcases written_cases hwritten with rfl | rfl | ⟨later, rfl, hlater⟩
      · exact List.nil_prefix
      · simp [segments_last hfree hne]
      · rw [List.flatten_cons, List.flatten_cons, List.singleton_append,
          segments_append_delim hfree]
        exact List.cons_prefix_cons.2 ⟨rfl, ih hproper.tail hlater⟩

theorem terminated_cons {line text : Bytes} (hterminated : Terminated newline text) :
    Terminated newline (line ++ newline :: text) := by
  refine Or.inr ?_
  rcases hterminated with rfl | hlast
  · simp
  · simp [List.getLast?_append, List.getLast?_cons, hlast]

/-- The next append is a newline, or the file ends with one. -/
theorem startsPiece_of_next (hwritten : written ++ [chunk] <+: appends lines) :
    StartsPiece newline written.flatten chunk := by
  induction lines generalizing written with
  | nil => simp [appends] at hwritten
  | cons line lines ih =>
      rcases written_cases ((List.prefix_append _ _).trans hwritten) with
        rfl | rfl | ⟨later, rfl, -⟩
      · exact Or.inl (Or.inl rfl)
      · rcases written_cases hwritten with heq | heq | ⟨later, heq, -⟩
        · simp at heq
        · simp at heq
        · obtain ⟨rfl, -⟩ : chunk = [newline] ∧ later = [] := by simpa using heq
          exact Or.inr (Or.inr rfl)
      · have hnext : later ++ [chunk] <+: appends lines := by
          rw [appends_cons, List.cons_append, List.cons_append] at hwritten
          exact (List.cons_prefix_cons.1 (List.cons_prefix_cons.1 hwritten).2).2
        rw [List.flatten_cons, List.flatten_cons, List.singleton_append]
        rcases ih hnext with hterminated | hrest
        · exact Or.inl (terminated_cons hterminated)
        · exact Or.inr hrest

end File

theorem NextAppend.wholeLines {lines : List Bytes} {core : Core} {label : Thread × World}
    (hnext : NextAppend lines core label) : WholeLines core label := by
  intro hclient
  obtain ⟨written, hwritten, hfile⟩ := hnext hclient
  exact hfile ▸ startsPiece_of_next hwritten

theorem written_of_run {lines : List Bytes} {dir : DataDir} (hempty : dir.commandsIn = [])
    {trace : List Event} {core : Core}
    (hrun : Run system (NextAppend lines) (powerOn dir) trace core) :
    ∃ written, written <+: appends lines ∧ core.shared.commandsIn = written.flatten := by
  refine hrun.invariant (fun _ core => ∃ written, written <+: appends lines ∧
    core.shared.commandsIn = written.flatten) ⟨[], List.nil_prefix, hempty⟩ ?_
  rintro trace core label next events _ ⟨written, hwritten, hfile⟩ hnext hstep
  rcases commandsIn_of_moves (moves_of_step hstep).path with ⟨hclient, hchunk⟩ | hsame
  · obtain ⟨written, hwritten, hfile⟩ := hnext hclient
    exact ⟨written ++ [label.2.chunk], hwritten, by simp [hchunk, hfile]⟩
  · exact ⟨written, hwritten, hsame.trans hfile⟩

/-! ## What a call has consumed when it ends -/

/-- `pump_rx` has not met the end of the file, or the offset is behind all that
`seen` holds. -/
def PastOrReading (seen : Bytes) (core : Core) : Prop :=
  core.io = .opening ∨ core.io = .getline false ∨ (∃ offset line, core.io = .body offset line false) ∨
    seen.length ≤ core.shared.bridge.commandOffset

theorem ioStep_pastOrReading {world : World} {core : Core} {seen : Bytes} {shared : Shared}
    {pc : IoPc} {events : List Event} (hlength : seen.length ≤ core.shared.commandsIn.length)
    (hopens : core.io = .opening →
      core.shared.bridge.initialized = true ∧ world.opened = true)
    (hpast : PastOrReading seen core)
    (hstep : ioStep world core.shared core.io = some (shared, pc, events)) :
    PastOrReading seen { core with shared := shared, io := pc } := by
  rcases hpast with hio | hio | ⟨offset, line, hio⟩ | hoffset
  · obtain ⟨hinitialized, hopened⟩ := hopens hio
    simp only [hio, ioStep, hinitialized, hopened, Bool.and_self, if_true] at hstep
    obtain ⟨-, rfl, -⟩ := by simpa using hstep
    exact Or.inr (Or.inl rfl)
  · simp only [hio, ioStep] at hstep
    split at hstep
    · rename_i hnone
      obtain ⟨rfl, rfl, -⟩ := by simpa using hstep
      simp only [getline] at hnone
      split_ifs at hnone with hend
      refine Or.inr (Or.inr (Or.inr ?_))
      have hdrop := List.drop_eq_nil_iff.1 hend
      exact hlength.trans hdrop
    · rename_i line atEnd hline
      obtain ⟨rfl, rfl, -⟩ := by simpa using hstep
      cases atEnd with
      | false => exact Or.inr (Or.inr (Or.inl ⟨_, _, rfl⟩))
      | true =>
          simp only [getline] at hline
          split_ifs at hline with hend
          obtain ⟨rfl, hlast⟩ := Prod.mk.inj (Option.some.inj hline)
          rw [decide_eq_true_eq, List.length_drop] at hlast
          refine Or.inr (Or.inr (Or.inr ?_))
          simp only
          omega
  · simp only [hio, ioStep] at hstep
    split at hstep
    · obtain ⟨-, rfl, -⟩ := by simpa using hstep
      exact Or.inr (Or.inl rfl)
    · obtain ⟨-, rfl, -⟩ := by simpa using hstep
      exact Or.inr (Or.inl rfl)
  · refine Or.inr (Or.inr (Or.inr ?_))
    cases ioMoves_of_step hstep with
    | take line atEnd hpc hline => exact hoffset.trans (Nat.le_add_right _ _)
    | _ => exact hoffset

/-- A step of the IO thread, or one that leaves the thread and its offset
alone. -/
theorem io_of_step {core next : Core} {label : Thread × World} {events : List Event}
    (hstep : system.step core label = some (next, events)) :
    ((label.1 = .io ∧ .io ∈ core.shared.threads) ∧
      ∃ shared pc, ioStep label.2 core.shared core.io = some (shared, pc, events) ∧
      next = { core with shared := shared, io := pc }) ∨
    (next.io = core.io ∧
      next.shared.bridge.commandOffset = core.shared.bridge.commandOffset) := by
  by_cases hio : label.1 = .io
  · obtain ⟨thread, world⟩ := label
    obtain rfl : thread = .io := hio
    simp only [system, step] at hstep
    split_ifs at hstep with hthread
    obtain ⟨⟨shared, pc, stepEvents⟩, hmove, heq⟩ := Option.map_eq_some_iff.1 hstep
    obtain ⟨rfl, rfl⟩ := Prod.mk.inj heq
    exact Or.inl ⟨⟨rfl, hthread⟩, shared, pc, hmove, rfl⟩
  · refine Or.inr ?_
    have hmoves := (moves_of_step hstep).path
    obtain ⟨thread, world⟩ := label
    cases hmoves with
    | control shared pc events hthread hmoves =>
        cases hmoves with
        | handle nowNs left cmd before after shared events hpc hhandler =>
            cases hhandler <;> exact ⟨rfl, rfl⟩
        | _ => exact ⟨rfl, rfl⟩
    | io shared pc events hthread hmoves => exact absurd rfl hio
    | append => exact ⟨rfl, rfl⟩
    | aside thread next events haside => exact ⟨haside.io, haside.commandOffset⟩

/-- From the moment `pump_rx` is called. -/
theorem pastOrReading_of_run {lines : List Bytes} {dir : DataDir} {core last : Core}
    {trace later : List Event}
    (hrun : Run system (NextAppend lines) (powerOn dir) trace core)
    (hcalled : core.io = .opening ∨ core.io = .getline false)
    (hlater : Run system (NextOpened lines) core later last) :
    PastOrReading core.shared.commandsIn last := by
  have hboth : core.shared.commandsIn.length ≤ last.shared.commandsIn.length ∧
      PastOrReading core.shared.commandsIn last := by
    refine hlater.invariant (fun _ last =>
      core.shared.commandsIn.length ≤ last.shared.commandsIn.length ∧
        PastOrReading core.shared.commandsIn last)
      ⟨Nat.le_refl _, hcalled.imp_right Or.inl⟩ ?_
    intro trace last label next events hreached hinv hlabel hstep
    constructor
    · rcases commandsIn_of_moves (moves_of_step hstep).path with ⟨-, hchunk⟩ | hsame
      · rw [hchunk, List.length_append]
        exact hinv.1.trans (Nat.le_add_right _ _)
      · rw [hsame]
        exact hinv.1
    · rcases io_of_step hstep with ⟨hthread, shared, pc, hmove, rfl⟩ | ⟨hsame, hoffset⟩
      · have hboot := Boot.run (hrun.append (hreached.mono fun _ _ => And.left))
        refine ioStep_pastOrReading hinv.1 (fun hio => ?_) hinv.2 hmove
        exact ⟨hboot.initialized (hboot.broughtUp hthread.2), hlabel.2 hthread.1 hio⟩
      · simpa only [PastOrReading, hsame, hoffset] using hinv.2
  exact hboth.2

/-- The lines consumed are the client's, in order and whole, the offset is their
extent, and a call of `pump_rx` that opens the file has consumed, when it ends,
every line whose text was there when it began, and even when it first read. -/
theorem consumed_in_order (lines : List Bytes) (hproper : Proper lines) (dir : DataDir)
    (hempty : dir.commandsIn = []) (trace : List Event) (core : Core)
    (hrun : Run system (NextAppend lines) (powerOn dir) trace core) :
    consumedLines trace core <+: lines ∧
      core.shared.bridge.commandOffset = extent (consumedLines trace core) ∧
      (core.io = .opening ∨ core.io = .getline false → ∀ later last,
        Run system (NextOpened lines) core later last → last.io = .pumpTx →
          linesFrom core.shared.commandsIn 0 <+: consumedLines (trace ++ later) last) := by
  have hwhole : ∀ core label, NextAppend lines core label → WholeLines core label :=
    fun _ _ => NextAppend.wholeLines
  have hconsumed : ∀ {trace : List Event} {core : Core},
      Run system (NextAppend lines) (powerOn dir) trace core →
      Consumed trace core (consumedLines trace core) := by
    intro trace core hrun
    obtain ⟨taken, htaken⟩ := Consumed.run hwhole hrun
    rwa [consumedLines, htaken.lines, map_snd_placed]
  refine ⟨?_, (hconsumed hrun).offset, fun hcalled later last hlater hlast => ?_⟩
  · obtain ⟨written, hwritten, hfile⟩ := written_of_run hempty hrun
    have hlines := segments_written hproper hwritten
    rw [← hfile] at hlines
    exact (hconsumed hrun).first.trans hlines
  · have happends := hlater.mono fun _ _ => And.left
    have hall := hconsumed (hrun.append happends)
    have hgrown := linesFrom_grows hwhole happends
    have hpast : core.shared.commandsIn.length ≤ last.shared.bridge.commandOffset := by
      rcases pastOrReading_of_run hrun hcalled hlater with
        hreading | hreading | ⟨offset, line, hreading⟩ | hpast
      · simp [hlast] at hreading
      · simp [hlast] at hreading
      · simp [hlast] at hreading
      · exact hpast
    rcases List.prefix_or_prefix_of_prefix hgrown hall.first with hprefix | ⟨others, hothers⟩
    · exact hprefix
    · have hrest := segments_drop_extent hothers.symm
      rw [← hall.offset, List.drop_zero, List.drop_eq_nil_of_le hpast, segments_nil] at hrest
      rw [← hothers, ← hrest, List.append_nil]

instance (lines : List Bytes) (core : Core) (label : Thread × World) :
    Decidable (NextAppend lines core label) :=
  decidable_of_iff (label.1 = .client → ∃ written ∈ (appends lines).inits,
      written ++ [label.2.chunk] <+: appends lines ∧
        core.shared.commandsIn = written.flatten) (by
    refine imp_congr_right fun _ => ⟨fun ⟨written, _, hnext⟩ => ⟨written, hnext⟩, ?_⟩
    rintro ⟨written, hnext, hfile⟩
    exact ⟨written, (List.mem_inits _ _).2 ((List.prefix_append _ _).trans hnext), hnext, hfile⟩)

private def oneStop : List Bytes := [plainLine .stop 1]

/-- The call reads a line whose newline is still to come, and stops one byte
past the end of the file. -/
theorem consumed_before_newline :
    ∃ (trace later : List Event) (core last : Core),
      Run system (NextAppend oneStop) (powerOn (freshDir [])) trace core ∧
        core.io = .opening ∧ core.shared.commandsIn = plainLine .stop 1 ∧
        Run system (NextOpened oneStop) core later last ∧ last.io = .pumpTx ∧
        linesFrom core.shared.commandsIn 0 <+: consumedLines (trace ++ later) last ∧
        last.shared.bridge.commandOffset = core.shared.commandsIn.length + 1 := by
  have hproper : Proper oneStop := by
    intro line hline
    rw [List.mem_singleton.1 hline]
    exact ⟨(plainFields .stop 1).line_ne_nil, newline_not_mem_plainLine .stop 1⟩
  obtain ⟨core, hrun, hcore⟩ := exists_run_of_execute system (NextAppend oneStop)
    (powerOn (freshDir []))
    (bootSchedule ++ [(.client, { chunk := plainLine .stop 1 })] ++ times 2 .io)
    (fun core => decide (core.io = .opening ∧ Thread.io ∈ core.shared.threads ∧
      core.shared.bridge.initialized = true ∧
      core.shared.commandsIn = plainLine .stop 1 ∧ core.shared.bridge.commandOffset = 0))
    (show _ = some ([], true) by decide +kernel)
  obtain ⟨hio, hthread, hinitialized, hfile, hoffset⟩ := of_decide_eq_true hcore
  have hlines : linesFrom core.shared.commandsIn core.shared.bridge.commandOffset = oneStop := by
    rw [linesFrom, hoffset, List.drop_zero, hfile]
    exact segments_last (newline_not_mem_plainLine .stop 1) (plainFields .stop 1).line_ne_nil
  have hopen : Run system OnlyIo core [] { core with io := .getline false } :=
    run_io hthread (by simp [hio, ioStep, hinitialized])
  obtain ⟨later, last, hread, hlast, hbridge, -⟩ := @run_getline
    { core with io := .getline false } oneStop false hthread rfl (by simp) hlines
  have honly : ∀ (core : Core) (label : Thread × World), OnlyIo core label →
      NextOpened oneStop core label := by
    rintro core label ⟨hlabel, hopened⟩
    refine ⟨fun hclient => ?_, fun _ _ => hopened⟩
    cases hlabel.symm.trans hclient
  have hlater : Run system (NextOpened oneStop) core later last :=
    (hopen.append hread).mono honly
  refine ⟨[], later, core, last, hrun, hio, hfile, hlater, hlast, ?_, ?_⟩
  · exact (consumed_in_order oneStop hproper (freshDir []) rfl [] core hrun).2.2 (Or.inl hio)
      later last hlater hlast
  · simp [hbridge, hoffset, hfile, oneStop]

end ArcravenUgv.OneClient
