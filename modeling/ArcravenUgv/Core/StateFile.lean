import ArcravenUgv.Core.SaveFaults

/-!
# What the state file means

`load` takes exactly the files that begin with what `save` writes, and after
saves without faults it returns the last state.
-/

namespace ArcravenUgv.StateFile

open ArcravenUgv.Command
open ArcravenUgv.StateStore
open ArcravenUgv.SaveFaults

/-- `StateStore::load` with its output parameter. -/
def loadInto (content : Option Bytes) (out : PersistentStateV1) : Bool × PersistentStateV1 :=
  match load content with
  | some state => (true, state)
  | none => (false, out)

theorem loadInto_eq_true_iff {content : Option Bytes} {out state : PersistentStateV1} :
    loadInto content out = (true, state) ↔ load content = some state := by
  rw [loadInto]
  cases load content <;> simp

/-- `load` takes the files that begin with what `save` writes, else it leaves its
parameter alone, and after saves without faults it returns the last state. -/
theorem load_iff_saved :
    (∀ (content : Option Bytes) (out state : PersistentStateV1),
      loadInto content out = (true, state) ↔
        ∃ file, content = some file ∧ file.take 28 = fileImage state) ∧
    (∀ (content : Option Bytes) (out : PersistentStateV1),
      (¬ ∃ file state, content = some file ∧ file.take 28 = fileImage state) →
        loadInto content out = (false, out)) ∧
    ∀ (disk : Disk) (earlier : List (PersistentStateV1 × Outcomes)) (state : PersistentStateV1)
      (outcomes : Outcomes) (out : PersistentStateV1),
      (∀ call ∈ earlier ++ [(state, outcomes)], FaultFree call.2) →
        loadInto ((earlier ++ [(state, outcomes)]).foldl save disk).live out = (true, state) := by
  have hload : ∀ (content : Option Bytes) (state : PersistentStateV1),
      load content = some state ↔
        ∃ file, content = some file ∧ file.take 28 = fileImage state := by
    intro content state
    cases content with
    | none => simp [load]
    | some file => simp [load_eq_some_iff]
  refine ⟨fun content out state => ?_, fun content out hnone => ?_,
    fun disk earlier state outcomes out hfree => ?_⟩
  · rw [loadInto_eq_true_iff, hload]
  · have hrefused : load content = none := by
      apply Option.eq_none_iff_forall_ne_some.2
      intro state hstate
      obtain ⟨file, hfile, himage⟩ := (hload content state).1 hstate
      exact hnone ⟨file, state, hfile, himage⟩
    rw [loadInto, hrefused]
  · have hlast : FaultFree outcomes := hfree (state, outcomes) (by simp)
    rw [loadInto_eq_true_iff, List.foldl_append, List.foldl_cons, List.foldl_nil,
      save_of_faultFree hlast, load_fileImage]

/-- A calibration saved over the first state of a new disk. -/
theorem load_after_two_saves :
    loadInto ([({}, faultFree), ({ calibratedOk := 1 }, faultFree)].foldl save
      { live := none, tmp := none }).live {} = (true, { calibratedOk := 1 }) :=
  load_iff_saved.2.2 { live := none, tmp := none } [({}, faultFree)] { calibratedOk := 1 }
    faultFree {} (by simp [faultFree_faultFree])

end ArcravenUgv.StateFile
