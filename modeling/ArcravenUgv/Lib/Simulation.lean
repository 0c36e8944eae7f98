import ArcravenUgv.Lib.Runs

/-!
# Forward simulation

One system follows another if every step of the second is matched by a run of
the first that shows what a view keeps of its events.  A whole run is then
matched by a whole run.
-/

namespace ArcravenUgv.Runs

variable {State Label Event Abs AbsLabel AbsEvent : Type*}
variable {sys : System State Label Event} {abs : System Abs AbsLabel AbsEvent}
variable {allowed : State → Label → Prop} {allowedAbs : Abs → AbsLabel → Prop}
variable {first : State} {firstAbs : Abs}

/-- A relation that every reached step keeps by a run is kept by every run. -/
theorem Run.simulate (view : Event → List AbsEvent) (related : State → Abs → Prop)
    (hstart : related first firstAbs)
    (hmatch : ∀ trace state image label next events,
      Run sys allowed first trace state → related state image → allowed state label →
        sys.step state label = some (next, events) →
          ∃ after, Run abs allowedAbs image (events.flatMap view) after ∧ related next after)
    {trace : List Event} {state : State} (hrun : Run sys allowed first trace state) :
    ∃ image, Run abs allowedAbs firstAbs (trace.flatMap view) image ∧ related state image := by
  induction hrun with
  | start => exact ⟨firstAbs, .start, hstart⟩
  | step hrun hallowed hstep ih =>
      obtain ⟨image, himage, hrelated⟩ := ih
      obtain ⟨after, hafter, hnext⟩ := hmatch _ _ image _ _ _ hrun hrelated hallowed hstep
      refine ⟨after, ?_, hnext⟩
      rw [List.flatMap_append]
      exact himage.append hafter

/-- The case of a function from the states of one system to those of the
other. -/
theorem Run.project (view : Event → List AbsEvent) (image : State → Abs)
    (hmatch : ∀ trace state label next events,
      Run sys allowed first trace state → allowed state label →
        sys.step state label = some (next, events) →
          Run abs allowedAbs (image state) (events.flatMap view) (image next))
    {trace : List Event} {state : State} (hrun : Run sys allowed first trace state) :
    Run abs allowedAbs (image first) (trace.flatMap view) (image state) := by
  obtain ⟨last, hlast, rfl⟩ := hrun.simulate view (fun state last => image state = last) rfl
    (fun trace state last label next events hrun hsame hallowed hstep =>
      ⟨image next, hsame ▸ hmatch trace state label next events hrun hallowed hstep, rfl⟩)
  exact hlast

end ArcravenUgv.Runs
