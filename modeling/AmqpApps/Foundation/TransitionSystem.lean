import Mathlib.Init

/-! # Labelled transition systems

Runs of a system whose steps are chosen by an environment: messages arriving,
sends that fail, processes that die. A property of every run is proved of
every reached state, under a condition that each step of the run meets.
-/

namespace AmqpApps

/-- A system whose actions are deterministic. What varies from run to run is
the order of the actions and nothing else. -/
structure TransitionSystem (State : Type u) (Action : Type v) where
  Initial : State → Prop
  Enabled : State → Action → Prop
  perform : State → Action → State

namespace TransitionSystem

variable {State : Type u} {Action : Type v}

/-- The states reached by the runs whose every step meets `Allowed`, a
condition on the step's action and on the state before it. -/
inductive Reached (system : TransitionSystem State Action)
    (Allowed : State → Action → Prop) : State → Prop
  | start {state : State} : system.Initial state → Reached system Allowed state
  | next {state : State} (action : Action) :
      Reached system Allowed state → Allowed state action →
      system.Enabled state action →
      Reached system Allowed (system.perform state action)

@[reducible] def anyStep (_ : State) (_ : Action) : Prop := True

namespace Reached

variable {system : TransitionSystem State Action}
variable {Allowed Weaker : State → Action → Prop} {state : State}

/-- What holds at the start and is kept by every allowed step holds of every
state an allowed run reaches. -/
theorem invariant (Invariant : State → Prop)
    (initially : ∀ state, system.Initial state → Invariant state)
    (kept : ∀ state action, Invariant state → Allowed state action →
      system.Enabled state action → Invariant (system.perform state action))
    (reached : system.Reached Allowed state) : Invariant state := by
  induction reached with
  | start initial => exact initially _ initial
  | next action _ allowed enabled induction =>
      exact kept _ action induction allowed enabled

/-- The invariant rule with another invariant, already proved of the same
runs, at hand in each step. -/
theorem invariant_using (Known Invariant : State → Prop)
    (known : ∀ state, system.Reached Allowed state → Known state)
    (initially : ∀ state, system.Initial state → Invariant state)
    (kept : ∀ state action, Known state → Invariant state →
      Allowed state action → system.Enabled state action →
      Invariant (system.perform state action))
    (reached : system.Reached Allowed state) : Invariant state := by
  induction reached with
  | start initial => exact initially _ initial
  | next action before allowed enabled induction =>
      exact kept _ action (known _ before) induction allowed enabled

theorem mono (reached : system.Reached Allowed state)
    (weaker : ∀ state action, Allowed state action → Weaker state action) :
    system.Reached Weaker state := by
  induction reached with
  | start initial => exact .start initial
  | next action _ allowed enabled induction =>
      exact .next action induction (weaker _ _ allowed) enabled

/-- A part of a system that every step leaves alone, or takes through a step of
its own, runs as the part's own system does. -/
theorem project {Part : Type w} {PartAction : Type x}
    {own : TransitionSystem Part PartAction} {OwnAllowed : Part → PartAction → Prop}
    (part : State → Part)
    (initially : ∀ state, system.Initial state → own.Initial (part state))
    (step : ∀ state action, Allowed state action → system.Enabled state action →
      part (system.perform state action) = part state ∨
        ∃ ownAction, OwnAllowed (part state) ownAction ∧
          own.Enabled (part state) ownAction ∧
          part (system.perform state action) = own.perform (part state) ownAction)
    (reached : system.Reached Allowed state) : own.Reached OwnAllowed (part state) := by
  induction reached with
  | start initial => exact .start (initially _ initial)
  | next action _ allowed enabled induction =>
      rcases step _ action allowed enabled with same | ⟨ownAction, may, can, moved⟩
      · rw [same]
        exact induction
      · rw [moved]
        exact .next ownAction induction may can

end Reached

/-! ## Executing a run -/

/-- Take the listed actions in turn, or stop with `none` at the first one that
is not enabled or not allowed. -/
def run (system : TransitionSystem State Action)
    (Allowed : State → Action → Prop)
    [∀ state action, Decidable (Allowed state action)]
    [∀ state action, Decidable (system.Enabled state action)]
    (state : State) : List Action → Option State
  | [] => some state
  | action :: actions =>
      if Allowed state action ∧ system.Enabled state action then
        run system Allowed (system.perform state action) actions
      else none

theorem of_run_cons {system : TransitionSystem State Action}
    {Allowed : State → Action → Prop}
    [∀ state action, Decidable (Allowed state action)]
    [∀ state action, Decidable (system.Enabled state action)]
    {first last : State} {action : Action} {actions : List Action}
    (ran : system.run Allowed first (action :: actions) = some last) :
    Allowed first action ∧ system.Enabled first action ∧
      system.run Allowed (system.perform first action) actions = some last := by
  rw [run] at ran
  split at ran
  · rename_i possible
    exact ⟨possible.1, possible.2, ran⟩
  · cases ran

theorem Reached.of_run {system : TransitionSystem State Action}
    {Allowed : State → Action → Prop}
    [∀ state action, Decidable (Allowed state action)]
    [∀ state action, Decidable (system.Enabled state action)] :
    ∀ (actions : List Action) {first last : State},
      system.Reached Allowed first →
      system.run Allowed first actions = some last →
      system.Reached Allowed last
  | [], first, last, reached, executed => by
      cases executed
      exact reached
  | action :: actions, first, last, reached, executed => by
      rcases of_run_cons executed with ⟨allowed, enabled, rest⟩
      exact of_run actions (.next action reached allowed enabled) rest

theorem Reached.of_isSome_run (system : TransitionSystem State Action)
    (Allowed : State → Action → Prop)
    [∀ state action, Decidable (Allowed state action)]
    [∀ state action, Decidable (system.Enabled state action)] {first : State}
    (reached : system.Reached Allowed first) (actions : List Action)
    (executed : (system.run Allowed first actions).isSome = true) :
    system.Reached Allowed ((system.run Allowed first actions).get executed) :=
  .of_run actions reached (Option.some_get executed).symm

end TransitionSystem

end AmqpApps
