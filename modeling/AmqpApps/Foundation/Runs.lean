import AmqpApps.Foundation.KeyedBags
import AmqpApps.Foundation.TransitionSystem
import Mathlib.Tactic.Common

/-! # Runs with their actions, and systems that run down

Where a statement is about what has been done and not only about the state that has come
of it, a run keeps the list of its actions. A system runs down when its own steps make a
weight of its states smaller: left to itself it comes to rest.
-/

namespace AmqpApps

namespace TransitionSystem

variable {State : Type u} {Action : Type v}

/-- The states that an initial one is taken to by the listed actions, all of them allowed. -/
inductive Ran (system : TransitionSystem State Action)
    (Allowed : State → Action → Prop) : List Action → State → Prop
  | start {state : State} : system.Initial state → Ran system Allowed [] state
  | next {actions : List Action} {state : State} (action : Action) :
      Ran system Allowed actions state → Allowed state action →
      system.Enabled state action →
      Ran system Allowed (actions ++ [action]) (system.perform state action)

inductive Leads (system : TransitionSystem State Action)
    (Allowed : State → Action → Prop) : State → List Action → State → Prop
  | stay {state : State} : Leads system Allowed state [] state
  | go {state last : State} {action : Action} {actions : List Action} :
      Allowed state action → system.Enabled state action →
      Leads system Allowed (system.perform state action) actions last →
      Leads system Allowed state (action :: actions) last

variable {system : TransitionSystem State Action}
variable {Allowed : State → Action → Prop} {first last : State} {actions : List Action}

/-- What is seen of a system, when every step is one of another system or is not seen, runs as
the other does. -/
theorem Reached.project_reached {Seen : Type w} {SeenAction : Type x}
    {own : TransitionSystem Seen SeenAction} {OwnAllowed : Seen → SeenAction → Prop}
    (seen : State → Seen) (initially : ∀ state, system.Initial state → own.Initial (seen state))
    (step : ∀ state action, system.Reached Allowed state → Allowed state action →
      system.Enabled state action →
      seen (system.perform state action) = seen state ∨
        ∃ ownAction, OwnAllowed (seen state) ownAction ∧ own.Enabled (seen state) ownAction ∧
          seen (system.perform state action) = own.perform (seen state) ownAction)
    (reached : system.Reached Allowed last) : own.Reached OwnAllowed (seen last) := by
  induction reached with
  | start initial => exact .start (initially _ initial)
  | next action before allowed enabled induction =>
      rcases step _ action before allowed enabled with same | ⟨ownAction, may, can, moved⟩
      · rw [same]
        exact induction
      · rw [moved]
        exact .next ownAction induction may can

namespace Ran

theorem reached (ran : system.Ran Allowed actions last) : system.Reached Allowed last := by
  induction ran with
  | start initial => exact .start initial
  | next action _ allowed enabled induction => exact .next action induction allowed enabled

theorem mono {Weaker : State → Action → Prop} (ran : system.Ran Allowed actions last)
    (weaker : ∀ state action, Allowed state action → Weaker state action) :
    system.Ran Weaker actions last := by
  induction ran with
  | start initial => exact .start initial
  | next action _ allowed enabled induction =>
      exact .next action induction (weaker _ _ allowed) enabled

theorem invariant (Invariant : List Action → State → Prop)
    (initially : ∀ state, system.Initial state → Invariant [] state)
    (kept : ∀ actions state action, system.Reached Allowed state → Invariant actions state →
      Allowed state action → system.Enabled state action →
      Invariant (actions ++ [action]) (system.perform state action))
    (ran : system.Ran Allowed actions last) : Invariant actions last := by
  induction ran with
  | start initial => exact initially _ initial
  | next action before allowed enabled induction =>
      exact kept _ _ action before.reached induction allowed enabled

theorem of_run [∀ state action, Decidable (Allowed state action)]
    [∀ state action, Decidable (system.Enabled state action)] :
    ∀ (more : List Action) {actions : List Action} {first : State},
      system.Ran Allowed actions first → system.run Allowed first more = some last →
      system.Ran Allowed (actions ++ more) last
  | [], actions, first, ran, executed => by
      cases executed
      rw [List.append_nil]
      exact ran
  | action :: more, actions, first, ran, executed => by
      rcases of_run_cons executed with ⟨allowed, enabled, rest⟩
      have longer := of_run more (ran.next action allowed enabled) rest
      rw [List.append_assoc] at longer
      exact longer

theorem of_isSome_run (system : TransitionSystem State Action)
    (Allowed : State → Action → Prop) [∀ state action, Decidable (Allowed state action)]
    [∀ state action, Decidable (system.Enabled state action)]
    (initial : system.Initial first) (actions : List Action)
    (executed : (system.run Allowed first actions).isSome = true) :
    system.Ran Allowed actions ((system.run Allowed first actions).get executed) :=
  of_run actions (.start initial) (Option.some_get executed).symm

/-- A run is explained by a sequence of operations when each step is explained by none or
by one; the steps taken so far are at hand. -/
theorem explained {Operation : Type w}
    (Explains : List Action → State → List Operation → Prop)
    (initially : ∀ state, system.Initial state → Explains [] state [])
    (kept : ∀ actions state action operations, system.Reached Allowed state →
      Explains actions state operations → Allowed state action →
      system.Enabled state action →
      Explains (actions ++ [action]) (system.perform state action) operations ∨
        ∃ operation, Explains (actions ++ [action]) (system.perform state action)
          (operations ++ [operation]))
    (ran : system.Ran Allowed actions last) : ∃ operations, Explains actions last operations := by
  induction ran with
  | start initial => exact ⟨[], initially _ initial⟩
  | next action before allowed enabled induction =>
      rcases induction with ⟨operations, explains⟩
      rcases kept _ _ action operations before.reached explains allowed enabled with
        silent | ⟨operation, effective⟩
      · exact ⟨operations, silent⟩
      · exact ⟨operations ++ [operation], effective⟩

/-- A step of the system's own makes the weight smaller, and others add a share at most when
they bring something: so over a run the steps of its own are bounded by what was brought. -/
theorem taken_le (ran : system.Ran Allowed actions last) (own brings : Action → Bool)
    (weight : State → Nat) (start share : Nat)
    (initially : ∀ state, system.Initial state → weight state ≤ start)
    (lighter : ∀ state action, system.Reached Allowed state → own action = true →
      system.Enabled state action → weight (system.perform state action) < weight state)
    (heavier : ∀ state action, own action = false → system.Enabled state action →
      weight (system.perform state action) ≤ weight state + share * (brings action).toNat) :
    actions.countP own + weight last ≤ start + share * actions.countP brings := by
  induction ran with
  | start initial => simpa using initially _ initial
  | @next actions state action before _ enabled induction =>
      rw [countP_concat, countP_concat, Nat.mul_add]
      cases mine : own action with
      | true =>
          have less := lighter state action before.reached mine enabled
          rw [Bool.toNat_true]
          omega
      | false =>
          have more := heavier state action mine enabled
          rw [Bool.toNat_false]
          omega

end Ran

namespace Leads

theorem keeps (Invariant : State → Prop)
    (kept : ∀ state action, Invariant state → Allowed state action →
      system.Enabled state action → Invariant (system.perform state action))
    (path : system.Leads Allowed first actions last) (holds : Invariant first) :
    Invariant last := by
  induction path with
  | stay => exact holds
  | go allowed enabled _ induction => exact induction (kept _ _ holds allowed enabled)

/-- Where each step of the system's own makes the weight smaller and no other step makes it
larger, the weight bounds the steps of its own, whatever is taken in between. -/
theorem taken_le (path : system.Leads Allowed first actions last) (own : Action → Bool)
    (Known : State → Prop) (weight : State → Nat)
    (kept : ∀ state action, Known state → Allowed state action → system.Enabled state action →
      Known (system.perform state action))
    (lighter : ∀ state action, Known state → own action = true → system.Enabled state action →
      weight (system.perform state action) < weight state)
    (level : ∀ state action, Known state → own action = false → system.Enabled state action →
      weight (system.perform state action) ≤ weight state)
    (known : Known first) : actions.countP own + weight last ≤ weight first := by
  induction path with
  | stay => simp
  | @go state last action actions allowed enabled _ induction =>
      have rest := induction (kept state action known allowed enabled)
      rw [List.countP_cons]
      cases mine : own action with
      | true =>
          have less := lighter state action known mine enabled
          simp only [if_true]
          omega
      | false =>
          have same := level state action known mine enabled
          simp only [Bool.false_eq_true, if_false]
          omega

theorem of_run [∀ state action, Decidable (Allowed state action)]
    [∀ state action, Decidable (system.Enabled state action)] :
    ∀ (actions : List Action) {first : State}, system.run Allowed first actions = some last →
      system.Leads Allowed first actions last
  | [], first, executed => by
      cases executed
      exact .stay
  | action :: actions, first, executed => by
      rcases of_run_cons executed with ⟨allowed, enabled, rest⟩
      exact .go allowed enabled (of_run actions rest)

theorem of_isSome_run (system : TransitionSystem State Action)
    (Allowed : State → Action → Prop) [∀ state action, Decidable (Allowed state action)]
    [∀ state action, Decidable (system.Enabled state action)] (actions : List Action)
    (executed : (system.run Allowed first actions).isSome = true) :
    system.Leads Allowed first actions ((system.run Allowed first actions).get executed) :=
  of_run actions (Option.some_get executed).symm

end Leads

/-- A system is simulated by another when each of its steps leads the other from a state that
matches to one that does; what matters is not in the states alone, so matching is a relation. -/
theorem Reached.simulated {Other : Type w} {OtherAction : Type x}
    (other : TransitionSystem Other OtherAction) (Matches : State → Other → Prop)
    (initially : ∀ state, system.Initial state →
      ∃ mate, other.Initial mate ∧ Matches state mate)
    (step : ∀ state action mate, Allowed state action → system.Enabled state action →
      Matches state mate → ∃ more next, other.Leads anyStep mate more next ∧
        Matches (system.perform state action) next)
    (reached : system.Reached Allowed last) :
    ∃ mate, other.Reached anyStep mate ∧ Matches last mate := by
  induction reached with
  | start initial =>
      rcases initially _ initial with ⟨mate, first, like⟩
      exact ⟨mate, .start first, like⟩
  | next action before allowed enabled induction =>
      rcases induction with ⟨mate, reached, like⟩
      rcases step _ action mate allowed enabled like with ⟨more, next, path, like⟩
      refine ⟨next, ?_, like⟩
      apply path.keeps (other.Reached anyStep)
      · intro state action reached allowed enabled
        exact .next action reached allowed enabled
      · exact reached

/-! ## Systems that run down -/

/-- In the states known of, each step of the system's own makes the weight smaller. -/
structure RunsDown (system : TransitionSystem State Action) (Own : State → Action → Prop)
    (Known : State → Prop) (weight : State → Nat) : Prop where
  kept : ∀ state action, Known state → Own state action → system.Enabled state action →
    Known (system.perform state action)
  lighter : ∀ state action, Known state → Own state action → system.Enabled state action →
    weight (system.perform state action) < weight state

def Still (system : TransitionSystem State Action) (Own : State → Action → Prop)
    (state : State) : Prop :=
  ∀ action, Own state action → ¬system.Enabled state action

/-- The steps that the system takes by itself, whatever its state. -/
@[reducible] def byItself (Own : Action → Prop) (_ : State) (action : Action) : Prop :=
  Own action

namespace RunsDown

variable {Own : State → Action → Prop} {Known : State → Prop} {weight : State → Nat}

theorem known (down : system.RunsDown Own Known weight)
    (path : system.Leads Own first actions last) (known : Known first) : Known last :=
  path.keeps Known down.kept known

/-- By itself the system takes no more steps than its weight allows. -/
theorem length_le (down : system.RunsDown Own Known weight)
    (path : system.Leads Own first actions last) (known : Known first) :
    actions.length + weight last ≤ weight first := by
  induction path with
  | stay => simp
  | @go state last action actions own enabled _ induction =>
      have lighter := down.lighter state action known own enabled
      have rest := induction (down.kept state action known own enabled)
      simp only [List.length_cons]
      omega

/-- From wherever it is, it comes to rest, whichever steps it takes on the way. -/
theorem settles (down : system.RunsDown Own Known weight) (known : Known first) :
    ∃ actions last, system.Leads Own first actions last ∧ Known last ∧
      system.Still Own last := by
  induction size : weight first using Nat.strongRecOn generalizing first with
  | ind size induction =>
      by_cases still : system.Still Own first
      · exact ⟨[], first, .stay, known, still⟩
      · simp only [Still, not_forall, not_not] at still
        rcases still with ⟨action, own, enabled⟩
        have lighter := down.lighter first action known own enabled
        rw [size] at lighter
        rcases induction _ lighter (down.kept first action known own enabled) rfl with
          ⟨actions, last, path, knownToo, still⟩
        exact ⟨action :: actions, last, .go own enabled path, knownToo, still⟩

end RunsDown

end TransitionSystem

end AmqpApps
