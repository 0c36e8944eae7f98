import ArcravenUgv.Core.StateStore

/-!
# Saving under faults

`StateStore::save` step by step.  Every filesystem call may fail, the temporary
file may receive only part of what was written, and the process may stop between
any two steps.  A rename either happens or changes nothing.  The stream buffers what
is written, and behind a short flush it writes its whole buffer again when it is
closed, as the one of libstdc++ does.
-/

namespace ArcravenUgv.SaveFaults

open Function
open ArcravenUgv.Command
open ArcravenUgv.StateStore

/-- The state file and its `.tmp` neighbour, `none` where there is no file. -/
structure Disk where
  live : Option Bytes
  tmp : Option Bytes
  deriving DecidableEq, Repr

/-- How every call inside `save` ends.  A count says how many of the bytes in the
stream's buffer the call gets into the temporary file. -/
structure Outcomes where
  createDirectories : Bool
  openTmp : Bool
  flushed : ℕ
  closed : ℕ
  rename : Bool
  remove : Bool
  renameAgain : Bool
  deriving DecidableEq, Repr

inductive Result
  | returned (saved : Bool)
  | threw
  deriving DecidableEq, Repr

/-- The call `save` makes next. -/
inductive SavePc
  | createDirectories
  | openTmp
  | writeHeader
  | writePayload
  | flush
  | close
  | rename
  | remove
  | renameAgain
  | done (result : Result)
  deriving DecidableEq, Repr

def Disk.writeTmp (disk : Disk) (content : Bytes) : Disk := { disk with tmp := some content }

/-- The temporary file takes the place of the state file. -/
def Disk.install (disk : Disk) : Disk where
  live := disk.tmp
  tmp := none

/-- Where `save` stands: the call it makes next, what its stream has buffered, and what
is on the disk. -/
structure Saving where
  pc : SavePc
  buffer : Bytes
  disk : Disk
  deriving DecidableEq, Repr

/-- The stream writes its buffer behind what the temporary file has, and keeps all of it
unless all of it was written. -/
def Saving.spill (saving : Saving) (count : ℕ) : Saving :=
  { saving with
    buffer := if saving.buffer.length ≤ count then [] else saving.buffer
    disk := { saving.disk with
      tmp := saving.disk.tmp.map fun file => file ++ saving.buffer.take count } }

/-- One call of `save`.  `create_directories` is the overload that throws; header and
payload fit into the stream's buffer. -/
def saveStep (state : PersistentStateV1) (outcomes : Outcomes) (saving : Saving) : Saving :=
  match saving.pc with
  | .createDirectories =>
      if outcomes.createDirectories then { saving with pc := .openTmp }
      else { saving with pc := .done .threw }
  | .openTmp =>
      if outcomes.openTmp then
        { saving with pc := .writeHeader, disk := saving.disk.writeTmp [] }
      else { saving with pc := .done (.returned false) }
  | .writeHeader =>
      { saving with
        pc := .writePayload
        buffer := saving.buffer ++ headerBytes (headerFor (crc32Ieee (stateBytes state))) }
  | .writePayload =>
      { saving with pc := .flush, buffer := saving.buffer ++ stateBytes state }
  | .flush => { saving.spill outcomes.flushed with pc := .close }
  | .close => { saving.spill outcomes.closed with pc := .rename, buffer := [] }
  | .rename =>
      if outcomes.rename then
        { saving with pc := .done (.returned true), disk := saving.disk.install }
      else { saving with pc := .remove }
  | .remove =>
      { saving with
        pc := .renameAgain
        disk := if outcomes.remove then { saving.disk with live := none } else saving.disk }
  | .renameAgain =>
      if outcomes.renameAgain then
        { saving with pc := .done (.returned true), disk := saving.disk.install }
      else { saving with pc := .done (.returned false) }
  | .done _ => saving

/-- Where `save` stands after so many calls. -/
def saveRun (state : PersistentStateV1) (outcomes : Outcomes) (disk : Disk) (calls : ℕ) :
    Saving :=
  (saveStep state outcomes)^[calls] { pc := .createDirectories, buffer := [], disk := disk }

/-- What a caller relies on, whether `save` has ended or was stopped on its way:
the file still loads as the old or the new state, `true` is returned only over
the new state, and when the new state did not become loadable `save` ended with
`false` and left the old state. -/
def SaveAtomic (state : PersistentStateV1) (outcomes : Outcomes) (disk : Disk)
    (calls : ℕ) : Prop :=
  let after := saveRun state outcomes disk calls
  (∀ old, load disk.live = some old →
    load after.disk.live = some old ∨ load after.disk.live = some state) ∧
  (after.pc = .done (.returned true) → load after.disk.live = some state) ∧
  (∀ result, after.pc = .done result → load after.disk.live ≠ some state →
    result = .returned false ∧
      ∀ old, load disk.live = some old → load after.disk.live = some old)

/-- A rename that goes through, first or second, within so many calls. -/
def Installs (outcomes : Outcomes) (calls : ℕ) : Prop :=
  outcomes.createDirectories = true ∧ outcomes.openTmp = true ∧
    ((outcomes.rename = true ∧ 7 ≤ calls) ∨
      (outcomes.rename = false ∧ outcomes.renameAgain = true ∧ 9 ≤ calls))

/-- The fallback removed the state file within so many calls. -/
def RemovesLive (outcomes : Outcomes) (calls : ℕ) : Prop :=
  outcomes.createDirectories = true ∧ outcomes.openTmp = true ∧
    outcomes.rename = false ∧ outcomes.remove = true ∧ 8 ≤ calls

/-- All bytes reach the temporary file with the flush.  Else `close` writes the image once
more behind them, and that completes it only where the bytes still missing are those the
image begins with, as they are when the flush has written none. -/
def WritesAll (state : PersistentStateV1) (outcomes : Outcomes) : Prop :=
  28 ≤ outcomes.flushed ∨
    28 ≤ outcomes.flushed + outcomes.closed ∧
      (fileImage state).drop outcomes.flushed = (fileImage state).take (28 - outcomes.flushed)

instance (state : PersistentStateV1) (outcomes : Outcomes) :
    Decidable (WritesAll state outcomes) :=
  inferInstanceAs (Decidable (_ ∨ _))

/-- The inputs on which `save` keeps its promise: the directories can be
created, what a rename installs was written completely, and a state file that
loads is not removed without the second rename going through. -/
def SaveSafe (state : PersistentStateV1) (outcomes : Outcomes) (disk : Disk)
    (calls : ℕ) : Prop :=
  (outcomes.createDirectories = true ∨ calls = 0 ∨ load disk.live = some state) ∧
  (Installs outcomes calls → WritesAll state outcomes) ∧
  (RemovesLive outcomes calls → load disk.live ≠ none →
    outcomes.renameAgain = true ∧ 9 ≤ calls)

/-- What the stream leaves in the temporary file. -/
def written (state : PersistentStateV1) (outcomes : Outcomes) : Bytes :=
  (fileImage state).take outcomes.flushed ++
    if 28 ≤ outcomes.flushed then [] else (fileImage state).take outcomes.closed

/-- The six ways `save` can stand after some calls. -/
inductive Fate (state : PersistentStateV1) (outcomes : Outcomes) (disk : Disk) (calls : ℕ) :
    SavePc → Option Bytes → Prop
  | underway (pc : SavePc) (hpc : ∀ result, pc ≠ .done result)
      (hcreate : outcomes.createDirectories = true ∨ calls = 0)
      (hinstalls : ¬ Installs outcomes calls) (hremoves : ¬ RemovesLive outcomes calls) :
      Fate state outcomes disk calls pc disk.live
  | threw (hcalls : calls ≠ 0) (hcreate : outcomes.createDirectories = false) :
      Fate state outcomes disk calls (.done .threw) disk.live
  | refused (hcreate : outcomes.createDirectories = true)
      (hinstalls : ¬ Installs outcomes calls) (hremoves : ¬ RemovesLive outcomes calls) :
      Fate state outcomes disk calls (.done (.returned false)) disk.live
  | installed (hinstalls : Installs outcomes calls)
      (hremoves : RemovesLive outcomes calls → outcomes.renameAgain = true ∧ 9 ≤ calls) :
      Fate state outcomes disk calls (.done (.returned true))
        (some (written state outcomes))
  | removed (hinstalls : ¬ Installs outcomes calls) (hremoves : RemovesLive outcomes calls)
      (hcalls : calls < 9) :
      Fate state outcomes disk calls .renameAgain none
  | lost (hinstalls : ¬ Installs outcomes calls) (hremoves : RemovesLive outcomes calls)
      (hagain : outcomes.renameAgain = false) :
      Fate state outcomes disk calls (.done (.returned false)) none

section Runs

variable {state : PersistentStateV1} {outcomes : Outcomes} {disk : Disk}

theorem saveRun_succ (calls : ℕ) :
    saveRun state outcomes disk (calls + 1) =
      saveStep state outcomes (saveRun state outcomes disk calls) :=
  iterate_succ_apply' _ _ _

/-- Once `save` has ended nothing changes any more. -/
theorem saveRun_of_done {ended calls : ℕ} {result : Result}
    (hdone : (saveRun state outcomes disk ended).pc = .done result) (hcalls : ended ≤ calls) :
    saveRun state outcomes disk calls = saveRun state outcomes disk ended := by
  induction calls, hcalls using Nat.le_induction with
  | base => rfl
  | succ calls _ ih => rw [saveRun_succ, ih, saveStep, hdone]

theorem saveRun_threw (hcreate : outcomes.createDirectories = false) :
    saveRun state outcomes disk 1 = ⟨.done .threw, [], disk⟩ := by
  simp [saveRun, saveStep, hcreate]

theorem saveRun_not_opened (hcreate : outcomes.createDirectories = true)
    (hopen : outcomes.openTmp = false) :
    saveRun state outcomes disk 2 = ⟨.done (.returned false), [], disk⟩ := by
  simp [saveRun, saveStep, hcreate, hopen]

theorem saveStep_writeHeader (buffer : Bytes) :
    saveStep state outcomes ⟨.writeHeader, buffer, disk⟩ = ⟨.writePayload,
      buffer ++ headerBytes (headerFor (crc32Ieee (stateBytes state))), disk⟩ := rfl

theorem saveStep_writePayload (buffer : Bytes) :
    saveStep state outcomes ⟨.writePayload, buffer, disk⟩ =
      ⟨.flush, buffer ++ stateBytes state, disk⟩ := rfl

theorem saveStep_flush (buffer : Bytes) :
    saveStep state outcomes ⟨.flush, buffer, disk.writeTmp []⟩ =
      ⟨.close, if buffer.length ≤ outcomes.flushed then [] else buffer,
        disk.writeTmp ([] ++ buffer.take outcomes.flushed)⟩ := rfl

theorem saveStep_close (file buffer : Bytes) :
    saveStep state outcomes ⟨.close, buffer, disk.writeTmp file⟩ =
      ⟨.rename, [], disk.writeTmp (file ++ buffer.take outcomes.closed)⟩ := rfl

/-- The image stands in the stream's buffer. -/
theorem saveRun_buffered (hcreate : outcomes.createDirectories = true)
    (hopen : outcomes.openTmp = true) :
    saveRun state outcomes disk 2 = ⟨.writeHeader, [], disk.writeTmp []⟩ ∧
      saveRun state outcomes disk 3 = ⟨.writePayload,
        headerBytes (headerFor (crc32Ieee (stateBytes state))), disk.writeTmp []⟩ ∧
      saveRun state outcomes disk 4 = ⟨.flush, fileImage state, disk.writeTmp []⟩ := by
  have hone : saveRun state outcomes disk 1 = ⟨.openTmp, [], disk⟩ := by
    simp only [saveRun, iterate_one, saveStep, hcreate, if_true]
  have htwo : saveRun state outcomes disk 2 = ⟨.writeHeader, [], disk.writeTmp []⟩ := by
    rw [saveRun_succ, hone]
    simp only [saveStep, hopen, if_true]
  have hthree : saveRun state outcomes disk 3 = ⟨.writePayload,
      headerBytes (headerFor (crc32Ieee (stateBytes state))), disk.writeTmp []⟩ := by
    rw [saveRun_succ, htwo, saveStep_writeHeader, List.nil_append]
  refine ⟨htwo, hthree, ?_⟩
  rw [saveRun_succ, hthree, saveStep_writePayload, fileImage]

/-- What the flush has not written the stream keeps. -/
theorem saveRun_flushed (hcreate : outcomes.createDirectories = true)
    (hopen : outcomes.openTmp = true) :
    saveRun state outcomes disk 5 = ⟨.close,
      if 28 ≤ outcomes.flushed then [] else fileImage state,
      disk.writeTmp ((fileImage state).take outcomes.flushed)⟩ := by
  rw [saveRun_succ, (saveRun_buffered hcreate hopen).2.2, saveStep_flush, length_fileImage,
    List.nil_append]

theorem saveRun_rename (hcreate : outcomes.createDirectories = true)
    (hopen : outcomes.openTmp = true) :
    saveRun state outcomes disk 6 = ⟨.rename, [], disk.writeTmp (written state outcomes)⟩ := by
  rw [saveRun_succ, saveRun_flushed hcreate hopen, saveStep_close, written]
  split_ifs
  · rw [List.take_nil]
  · rfl

/-- Up to the first rename only the temporary file is touched. -/
theorem saveRun_early (hcreate : outcomes.createDirectories = true)
    (hopen : outcomes.openTmp = true) {calls : ℕ} (hcalls : calls ≤ 6) :
    (saveRun state outcomes disk calls).disk.live = disk.live ∧
      ∀ result, (saveRun state outcomes disk calls).pc ≠ .done result := by
  obtain ⟨htwo, hthree, hfour⟩ := @saveRun_buffered state outcomes disk hcreate hopen
  obtain rfl | rfl | rfl | rfl | rfl | rfl | rfl :
      calls = 0 ∨ calls = 1 ∨ calls = 2 ∨ calls = 3 ∨ calls = 4 ∨ calls = 5 ∨ calls = 6 := by
    omega
  · exact ⟨rfl, by simp [saveRun]⟩
  · simp [saveRun, saveStep, hcreate]
  · rw [htwo]
    exact ⟨rfl, by simp⟩
  · rw [hthree]
    exact ⟨rfl, by simp⟩
  · rw [hfour]
    exact ⟨rfl, by simp⟩
  · rw [saveRun_flushed hcreate hopen]
    exact ⟨rfl, by simp⟩
  · rw [saveRun_rename hcreate hopen]
    exact ⟨rfl, by simp⟩

theorem saveRun_installed (hcreate : outcomes.createDirectories = true)
    (hopen : outcomes.openTmp = true) (hrename : outcomes.rename = true) :
    saveRun state outcomes disk 7 =
      ⟨.done (.returned true), [], (disk.writeTmp (written state outcomes)).install⟩ := by
  rw [saveRun_succ, saveRun_rename hcreate hopen]
  simp [saveStep, hrename]

theorem saveRun_fallback (hcreate : outcomes.createDirectories = true)
    (hopen : outcomes.openTmp = true) (hrename : outcomes.rename = false) :
    saveRun state outcomes disk 7 =
        ⟨.remove, [], disk.writeTmp (written state outcomes)⟩ ∧
      saveRun state outcomes disk 8 =
        ⟨.renameAgain, [], { live := if outcomes.remove then none else disk.live
                             tmp := some (written state outcomes) }⟩ := by
  have hseven : saveRun state outcomes disk 7 =
      ⟨.remove, [], disk.writeTmp (written state outcomes)⟩ := by
    rw [saveRun_succ, saveRun_rename hcreate hopen]
    simp [saveStep, hrename]
  refine ⟨hseven, ?_⟩
  rw [saveRun_succ, hseven, saveStep]
  cases outcomes.remove <;> rfl

/-- The fallback path: remove, then rename once more. -/
theorem fate_fallback (hcreate : outcomes.createDirectories = true)
    (hopen : outcomes.openTmp = true) (hrename : outcomes.rename = false) {calls : ℕ}
    (hcalls : 7 ≤ calls) :
    Fate state outcomes disk calls (saveRun state outcomes disk calls).pc
      (saveRun state outcomes disk calls).disk.live := by
  obtain ⟨hseven, height⟩ := @saveRun_fallback state outcomes disk
    hcreate hopen hrename
  have hinstalls : Installs outcomes calls ↔ outcomes.renameAgain = true ∧ 9 ≤ calls := by
    simp [Installs, hcreate, hopen, hrename]
  have hremoves : RemovesLive outcomes calls ↔ outcomes.remove = true ∧ 8 ≤ calls := by
    simp [RemovesLive, hcreate, hopen, hrename]
  rcases Nat.lt_or_ge calls 9 with hlt | hge
  · have hnot : ¬ Installs outcomes calls := by rw [hinstalls]; omega
    obtain rfl | rfl : calls = 7 ∨ calls = 8 := by omega
    · rw [hseven]
      exact .underway _ (by simp) (Or.inl hcreate) hnot (by rw [hremoves]; omega)
    · rw [height]
      cases hremove : outcomes.remove with
      | false =>
          exact .underway _ (by simp) (Or.inl hcreate) hnot (by simp [hremoves, hremove])
      | true => exact .removed hnot (hremoves.2 ⟨hremove, le_rfl⟩) hlt
  · cases hagain : outcomes.renameAgain with
    | true =>
        have hdone : (saveRun state outcomes disk 9).pc = .done (.returned true) ∧
            (saveRun state outcomes disk 9).disk.live = some (written state outcomes) := by
          rw [saveRun_succ, height]
          simp [saveStep, hagain, Disk.install]
        rw [saveRun_of_done hdone.1 hge, hdone.1, hdone.2]
        exact .installed (hinstalls.2 ⟨hagain, hge⟩) fun _ => ⟨hagain, hge⟩
    | false =>
        have hdone : (saveRun state outcomes disk 9).pc = .done (.returned false) ∧
            (saveRun state outcomes disk 9).disk.live =
              if outcomes.remove then none else disk.live := by
          rw [saveRun_succ, height]
          simp [saveStep, hagain]
        have hnot : ¬ Installs outcomes calls := by simp [hinstalls, hagain]
        rw [saveRun_of_done hdone.1 hge, hdone.1, hdone.2]
        cases hremove : outcomes.remove with
        | false => exact .refused hcreate hnot (by simp [hremoves, hremove])
        | true => exact .lost hnot (hremoves.2 ⟨hremove, by omega⟩) hagain

theorem fate (state : PersistentStateV1) (outcomes : Outcomes) (disk : Disk) (calls : ℕ) :
    Fate state outcomes disk calls (saveRun state outcomes disk calls).pc
      (saveRun state outcomes disk calls).disk.live := by
  cases hcreate : outcomes.createDirectories with
  | false =>
      rcases Nat.eq_zero_or_pos calls with rfl | hpos
      · exact .underway _ (by simp [saveRun]) (Or.inr rfl) (by simp [Installs, hcreate])
          (by simp [RemovesLive, hcreate])
      · have hthrew := @saveRun_threw state outcomes disk hcreate
        rw [saveRun_of_done (congrArg Saving.pc hthrew) hpos, hthrew]
        exact .threw (by omega) hcreate
  | true =>
      cases hopen : outcomes.openTmp with
      | false =>
          have hinstalls : ¬ Installs outcomes calls := by simp [Installs, hopen]
          have hremoves : ¬ RemovesLive outcomes calls := by simp [RemovesLive, hopen]
          rcases Nat.lt_or_ge calls 2 with hlt | hge
          · interval_cases calls
            · exact .underway _ (by simp [saveRun]) (Or.inr rfl) hinstalls hremoves
            · have hone : saveRun state outcomes disk 1 = ⟨.openTmp, [], disk⟩ := by
                simp [saveRun, saveStep, hcreate]
              rw [hone]
              exact .underway _ (by simp) (Or.inl hcreate) hinstalls hremoves
          · have hrefused := @saveRun_not_opened state outcomes disk hcreate hopen
            rw [saveRun_of_done (congrArg Saving.pc hrefused) hge, hrefused]
            exact .refused hcreate hinstalls hremoves
      | true =>
          rcases Nat.lt_or_ge calls 7 with hlt | hge
          · obtain ⟨hlive, hpc⟩ := @saveRun_early state outcomes disk
              hcreate hopen calls (by omega)
            rw [hlive]
            exact .underway _ hpc (Or.inl hcreate) (by simp only [Installs]; omega)
              (by simp only [RemovesLive]; omega)
          · cases hrename : outcomes.rename with
            | true =>
                have hdone := @saveRun_installed state outcomes disk hcreate hopen hrename
                rw [saveRun_of_done (congrArg Saving.pc hdone) hge, hdone]
                exact .installed ⟨hcreate, hopen, Or.inl ⟨hrename, hge⟩⟩
                  (by simp [RemovesLive, hrename])
            | false => exact fate_fallback hcreate hopen hrename hge

/-- What a rename installs loads as the new state only when it is complete. -/
theorem load_written_iff :
    load (some (written state outcomes)) = some state ↔ WritesAll state outcomes := by
  have himage : (fileImage state).length = 28 := length_fileImage state
  rw [load_eq_some_iff, written, WritesAll]
  generalize fileImage state = image at himage ⊢
  generalize outcomes.flushed = flushed
  generalize outcomes.closed = closed
  split_ifs with hflushed
  · refine iff_of_true ?_ (.inl hflushed)
    rw [List.append_nil, List.take_of_length_le (himage.le.trans hflushed), ← himage,
      List.take_length]
  · have hshort : (image.take flushed).length = flushed := by
      rw [List.length_take, himage]
      omega
    have htake : (image.take flushed ++ image.take closed).take 28 =
        image.take flushed ++ image.take (min (28 - flushed) closed) := by
      rw [List.take_append, hshort, List.take_of_length_le (by omega), List.take_take]
    have hsplit : image.take flushed ++ image.drop flushed = image := List.take_append_drop ..
    rw [htake]
    constructor
    · intro hwhole
      have hrest := List.append_cancel_left (hwhole.trans hsplit.symm)
      have hlength := congrArg List.length hrest
      rw [List.length_take, List.length_drop, himage] at hlength
      have hmin : min (28 - flushed) closed = 28 - flushed := by omega
      exact .inr ⟨by omega, by rw [← hrest, hmin]⟩
    · rintro (hall | ⟨hclosed, hrest⟩)
      · exact absurd hall hflushed
      · rw [min_eq_left (by omega), ← hrest, hsplit]

/-- Nothing is lost with a missing file only if nothing could be loaded
before. -/
theorem load_eq_none_of_kept {live : Option Bytes}
    (hkept : ∀ old, load live = some old → load none = some old ∨ load none = some state) :
    load live = none := by
  by_contra hload
  obtain ⟨old, hold⟩ := Option.ne_none_iff_exists'.1 hload
  simpa [load] using hkept old hold

/-- A removed file that nothing replaced is safe only if it did not load. -/
theorem SaveSafe.load_eq_none {calls : ℕ} (hsafe : SaveSafe state outcomes disk calls)
    (hremoves : RemovesLive outcomes calls)
    (hfailed : ¬ (outcomes.renameAgain = true ∧ 9 ≤ calls)) : load disk.live = none := by
  by_contra hload
  exact hfailed (hsafe.2.2 hremoves hload)

theorem saveSafe_of_removed {calls : ℕ} (hinstalls : ¬ Installs outcomes calls)
    (hremoves : RemovesLive outcomes calls) (hnone : load disk.live = none) :
    SaveSafe state outcomes disk calls :=
  ⟨Or.inl hremoves.1, fun h => absurd h hinstalls, fun _ hload => absurd hnone hload⟩

/-- `save` keeps its promise exactly on the safe inputs. -/
theorem saveAtomic_iff_saveSafe (state : PersistentStateV1) (outcomes : Outcomes)
    (disk : Disk) (calls : ℕ) :
    SaveAtomic state outcomes disk calls ↔ SaveSafe state outcomes disk calls := by
  have hfate := fate state outcomes disk calls
  rw [SaveAtomic]
  generalize saveRun state outcomes disk calls = stand at hfate
  obtain ⟨pc, buffer, after⟩ := stand
  simp only at hfate ⊢
  generalize after.live = live at hfate ⊢
  cases hfate with
  | underway pc hpc hcreate hinstalls hremoves =>
      refine iff_of_true ⟨fun _ => Or.inl, fun hdone => absurd hdone (hpc _),
        fun result hdone => absurd hdone (hpc result)⟩ ⟨?_, ?_, ?_⟩
      · exact hcreate.imp_right Or.inl
      · exact fun h => absurd h hinstalls
      · exact fun h => absurd h hremoves
  | threw hcalls hcreate =>
      constructor
      · rintro ⟨-, -, hfailed⟩
        refine ⟨Or.inr (Or.inr ?_), fun h => ?_, fun h => ?_⟩
        · by_contra hload
          exact absurd (hfailed _ rfl hload).1 (by simp)
        · simp [Installs, hcreate] at h
        · simp [RemovesLive, hcreate] at h
      · rintro ⟨hload, -, -⟩
        have hsame : load disk.live = some state := by simpa [hcreate, hcalls] using hload
        exact ⟨fun _ => Or.inl, by simp, fun _ _ hne => absurd hsame hne⟩
  | refused hcreate hinstalls hremoves =>
      refine iff_of_true ⟨fun _ => Or.inl, by simp, ?_⟩ ⟨Or.inl hcreate, ?_, ?_⟩
      · rintro result heq -
        exact ⟨(SavePc.done.inj heq).symm, fun _ hold => hold⟩
      · exact fun h => absurd h hinstalls
      · exact fun h => absurd h hremoves
  | installed hinstalls hremoves =>
      constructor
      · rintro ⟨-, htrue, -⟩
        exact ⟨Or.inl hinstalls.1, fun _ => load_written_iff.1 (htrue rfl),
          fun h _ => hremoves h⟩
      · rintro ⟨-, hwritten, -⟩
        have hload : load (some (written state outcomes)) = some state :=
          load_written_iff.2 (hwritten hinstalls)
        exact ⟨fun _ _ => Or.inr hload, fun _ => hload, fun _ _ hne => absurd hload hne⟩
  | removed hinstalls hremoves hcalls =>
      constructor
      · rintro ⟨hkept, -, -⟩
        exact saveSafe_of_removed hinstalls hremoves (load_eq_none_of_kept hkept)
      · intro hsafe
        have hnone : load disk.live = none := hsafe.load_eq_none hremoves (by omega)
        exact ⟨by simp [hnone], by simp, by simp⟩
  | lost hinstalls hremoves hfailed =>
      constructor
      · rintro ⟨hkept, -, -⟩
        exact saveSafe_of_removed hinstalls hremoves (load_eq_none_of_kept hkept)
      · intro hsafe
        have hnone : load disk.live = none := hsafe.load_eq_none hremoves (by simp [hfailed])
        refine ⟨by simp [hnone], by simp, ?_⟩
        rintro result heq -
        exact ⟨(SavePc.done.inj heq).symm, by simp [hnone]⟩

/-! ## Saves without faults -/

/-- Every call of `save` succeeds and all bytes reach the temporary file. -/
structure FaultFree (outcomes : Outcomes) : Prop where
  createDirectories : outcomes.createDirectories = true
  openTmp : outcomes.openTmp = true
  flushed : 28 ≤ outcomes.flushed
  rename : outcomes.rename = true

def faultFree : Outcomes where
  createDirectories := true
  openTmp := true
  flushed := 28
  closed := 28
  rename := true
  remove := true
  renameAgain := true

theorem faultFree_faultFree : FaultFree faultFree :=
  ⟨rfl, rfl, le_rfl, rfl⟩

/-- The disk after a whole call of `save`, which makes nine calls at most. -/
def save (disk : Disk) (call : PersistentStateV1 × Outcomes) : Disk :=
  (saveRun call.1 call.2 disk 9).disk

theorem save_of_faultFree (hfree : FaultFree outcomes) :
    save disk (state, outcomes) = { live := some (fileImage state), tmp := none } := by
  have hdone := @saveRun_installed state outcomes disk hfree.createDirectories hfree.openTmp
    hfree.rename
  have hwritten : written state outcomes = fileImage state := by
    rw [written, if_pos hfree.flushed, List.append_nil,
      List.take_of_length_le ((length_fileImage state).le.trans hfree.flushed)]
  rw [save, saveRun_of_done (congrArg Saving.pc hdone) (by omega), hdone, hwritten]
  rfl

end Runs

/-! ## Where `save` fails -/

private def calibrated : PersistentStateV1 := { calibratedOk := 1 }

private def oldDisk : Disk where
  live := some (fileImage {})
  tmp := none

/-- A disk that is full before the temporary file is complete, also one that has room
again when the stream is closed, a directory that cannot be created, and a fallback whose
second rename fails. -/
theorem save_not_atomic :
    ¬ SaveAtomic calibrated { faultFree with flushed := 20, closed := 0 } oldDisk 7 ∧
    ¬ SaveAtomic calibrated { faultFree with flushed := 20, closed := 28 } oldDisk 7 ∧
    ¬ SaveAtomic calibrated { faultFree with createDirectories := false } oldDisk 1 ∧
    ¬ SaveAtomic calibrated { faultFree with rename := false, renameAgain := false }
      oldDisk 9 := by
  have hold : load oldDisk.live = some {} := load_fileImage {}
  have hshort (closed : ℕ) (hclosed : ¬ WritesAll calibrated
      { faultFree with flushed := 20, closed := closed }) :
      ¬ SaveAtomic calibrated { faultFree with flushed := 20, closed := closed } oldDisk 7 := by
    rintro ⟨-, htrue, -⟩
    rw [@saveRun_installed calibrated { faultFree with flushed := 20, closed := closed } oldDisk
      rfl rfl rfl] at htrue
    exact hclosed (load_written_iff.1 (htrue rfl))
  refine ⟨hshort 0 (by decide +kernel), hshort 28 (by decide +kernel), ?_, ?_⟩
  · rintro ⟨-, -, hfailed⟩
    have hthrew := @saveRun_threw calibrated { faultFree with createDirectories := false }
      oldDisk rfl
    rw [hthrew] at hfailed
    exact absurd (hfailed _ rfl (by rw [hold]; decide)).1 (by simp)
  · rintro ⟨hkept, -, -⟩
    have height := (@saveRun_fallback calibrated
      { faultFree with rename := false, renameAgain := false } oldDisk rfl rfl rfl).2
    have hlost : (saveRun calibrated { faultFree with rename := false, renameAgain := false }
        oldDisk 9).disk.live = none := by
      rw [saveRun_succ, height]
      rfl
    rw [hlost] at hkept
    simpa [load] using hkept _ hold

end ArcravenUgv.SaveFaults
