import Mathlib.Tactic.Common

/-! Runs of a deterministic step function that may refuse an action, what a run preserves, and
conditions that every step of a run meets. -/

namespace Run

variable {State Action : Type} (step : State → Action → Option State)

/-- All actions in order, or nothing when one of them is refused. -/
def run (state : State) : List Action → Option State
  | [] => some state
  | action :: rest => (step state action).bind fun after => run after rest

variable {step}

theorem run_cons {state final : State} {action : Action} {rest : List Action} :
    run step state (action :: rest) = some final ↔
      ∃ after, step state action = some after ∧ run step after rest = some final := by
  rw [run, Option.bind_eq_some_iff]

/-- What every step by an allowed action preserves, a run of such actions preserves. -/
theorem invariant_of_allowed {allowed : Action → Prop} {Inv : State → Prop}
    (hstep : ∀ state action after, allowed action → step state action = some after → Inv state → Inv after)
    {state final : State} {actions : List Action} (hallowed : ∀ action ∈ actions, allowed action)
    (hrun : run step state actions = some final) (h : Inv state) : Inv final := by
  induction actions generalizing state with
  | nil =>
      cases hrun
      exact h
  | cons action rest ih =>
      obtain ⟨after, hnext, hrest⟩ := run_cons.mp hrun
      obtain ⟨hfirst, hlater⟩ := List.forall_mem_cons.mp hallowed
      exact ih hlater hrest (hstep state action after hfirst hnext h)

/-- What every step preserves, a run preserves. -/
theorem invariant {Inv : State → Prop}
    (hstep : ∀ state action after, step state action = some after → Inv state → Inv after)
    {state final : State} {actions : List Action} (hrun : run step state actions = some final)
    (h : Inv state) : Inv final :=
  invariant_of_allowed (fun state action after (_ : True) => hstep state action after)
    (fun _ _ => trivial) hrun h

variable (step)

/-- Every state a run goes through has a property. -/
def Throughout (P : State → Prop) (state : State) (actions : List Action) : Prop :=
  ∀ earlier later, actions = earlier ++ later → ∀ reached, run step state earlier = some reached → P reached

variable {step}

theorem throughout_nil {P : State → Prop} {state : State} : Throughout step P state [] ↔ P state := by
  constructor
  · intro h
    exact h [] [] rfl state rfl
  · intro h earlier later heq reached hrun
    obtain ⟨rfl, rfl⟩ := List.append_eq_nil_iff.mp heq.symm
    cases hrun
    exact h

theorem throughout_cons {P : State → Prop} {state : State} {action : Action} {rest : List Action} :
    Throughout step P state (action :: rest) ↔
      P state ∧ ∀ after, step state action = some after → Throughout step P after rest := by
  constructor
  · intro h
    refine ⟨h [] _ rfl state rfl, fun after hstep earlier later heq reached hrun => ?_⟩
    exact h (action :: earlier) later (by rw [heq, List.cons_append]) reached
      (run_cons.mpr ⟨after, hstep, hrun⟩)
  · rintro ⟨hstate, hrest⟩ earlier later heq reached hrun
    cases earlier with
    | nil =>
        cases hrun
        exact hstate
    | cons first earlier =>
        obtain ⟨rfl, htail⟩ := List.cons.inj heq
        obtain ⟨after, hstep, hrun⟩ := run_cons.mp hrun
        exact hrest after hstep earlier later htail reached hrun

theorem run_append {state middle : State} {left right : List Action} (hrun : run step state left = some middle) :
    run step state (left ++ right) = run step middle right := by
  induction left generalizing state with
  | nil =>
      cases hrun
      rfl
  | cons action left ih =>
      obtain ⟨after, hstep, hrest⟩ := run_cons.mp hrun
      rw [List.cons_append, run, hstep, Option.bind_some]
      exact ih hrest

/-- A run has a property throughout when both of its parts have. -/
theorem throughout_append {P : State → Prop} {state middle : State} {left right : List Action}
    (hrun : run step state left = some middle) (hleft : Throughout step P state left)
    (hright : Throughout step P middle right) : Throughout step P state (left ++ right) := by
  induction left generalizing state with
  | nil =>
      cases hrun
      exact hright
  | cons action left ih =>
      obtain ⟨after, hstep, hrest⟩ := run_cons.mp hrun
      obtain ⟨hstate, hlater⟩ := throughout_cons.mp hleft
      refine throughout_cons.mpr ⟨hstate, fun next hnext => ?_⟩
      rw [hstep] at hnext
      cases hnext
      exact ih hrest (hlater after hstep)

variable (step)

/-- Every step of the run meets a condition on its action and the state before it. -/
def Along (guard : State → Action → Prop) (state : State) : List Action → Prop
  | [] => True
  | action :: rest =>
      guard state action ∧ ∀ after, step state action = some after → Along guard after rest

variable {step}

theorem along_append {guard : State → Action → Prop} {state middle : State} {left right : List Action}
    (hrun : run step state left = some middle) :
    Along step guard state (left ++ right) ↔ Along step guard state left ∧ Along step guard middle right := by
  induction left generalizing state with
  | nil =>
      cases hrun
      exact ⟨fun h => ⟨trivial, h⟩, fun h => h.2⟩
  | cons action left ih =>
      obtain ⟨after, hstep, hrest⟩ := run_cons.mp hrun
      constructor
      · rintro ⟨hguard, hlater⟩
        refine ⟨⟨hguard, fun next hnext => ?_⟩, ((ih hrest).mp (hlater after hstep)).2⟩
        rw [hstep] at hnext
        cases hnext
        exact ((ih hrest).mp (hlater after hstep)).1
      · rintro ⟨⟨hguard, hleft⟩, hright⟩
        refine ⟨hguard, fun next hnext => ?_⟩
        rw [hstep] at hnext
        cases hnext
        exact (ih hrest).mpr ⟨hleft after hstep, hright⟩

end Run
