import AmqpApps.Foundation.TransitionSystem
import Mathlib.Data.List.Basic

/-! # Sequential objects

An object whose operations take effect one after the other, each at once. A
concurrent system behaves like the object when every run can be explained by
operations in some order; to show that, it is enough to say for each step
which operation takes effect in it, if any does.
-/

namespace AmqpApps

structure SequentialObject (State : Type u) (Operation : Type v) (Response : Type w) where
  initial : State
  perform : State → Operation → State × Response

namespace SequentialObject

variable {State : Type u} {Operation : Type v} {Response : Type w}
variable (object : SequentialObject State Operation Response)

def after (operations : List Operation) : State :=
  operations.foldl (fun state operation => (object.perform state operation).1) object.initial

def answersFrom (state : State) : List Operation → List (Operation × Response)
  | [] => []
  | operation :: operations =>
      (operation, (object.perform state operation).2) ::
        answersFrom (object.perform state operation).1 operations

def answers (operations : List Operation) : List (Operation × Response) :=
  object.answersFrom object.initial operations

theorem after_concat (operations : List Operation) (operation : Operation) :
    object.after (operations ++ [operation]) =
      (object.perform (object.after operations) operation).1 := by
  simp [after]

theorem answersFrom_concat (state : State) (operations : List Operation)
    (operation : Operation) :
    object.answersFrom state (operations ++ [operation]) =
      object.answersFrom state operations ++
        [(operation, (object.perform (operations.foldl
          (fun state operation => (object.perform state operation).1) state)
            operation).2)] := by
  induction operations generalizing state with
  | nil => rfl
  | cons first operations induction =>
      simp [answersFrom, induction]

theorem answers_concat (operations : List Operation) (operation : Operation) :
    object.answers (operations ++ [operation]) =
      object.answers operations ++
        [(operation, (object.perform (object.after operations) operation).2)] :=
  object.answersFrom_concat object.initial operations operation

theorem answersFrom_operations (state : State) (operations : List Operation) :
    (object.answersFrom state operations).map Prod.fst = operations := by
  induction operations generalizing state with
  | nil => rfl
  | cons first operations induction => simp [answersFrom, induction]

theorem answers_operations (operations : List Operation) :
    (object.answers operations).map Prod.fst = operations :=
  object.answersFrom_operations object.initial operations

end SequentialObject

/-- A system whose every step is explained by no operation of an object or by
one is explained by a sequence of operations in every state it reaches. -/
theorem TransitionSystem.Reached.explained {State : Type u} {Action : Type v}
    {Abstract : Type w} {Operation : Type x} {Response : Type y}
    {system : TransitionSystem State Action} {Allowed : State → Action → Prop}
    (object : SequentialObject Abstract Operation Response)
    (Explains : State → List (Operation × Response) → Abstract → Prop)
    (initially : ∀ state, system.Initial state → Explains state [] object.initial)
    (kept : ∀ state action log abstract, Explains state log abstract →
      Allowed state action → system.Enabled state action →
      Explains (system.perform state action) log abstract ∨
        ∃ operation, Explains (system.perform state action)
          (log ++ [(operation, (object.perform abstract operation).2)])
          (object.perform abstract operation).1)
    {state : State} (reached : system.Reached Allowed state) :
    ∃ operations, Explains state (object.answers operations) (object.after operations) := by
  induction reached with
  | start initial => exact ⟨[], initially _ initial⟩
  | next action _ allowed enabled induction =>
      rcases induction with ⟨operations, explains⟩
      rcases kept _ action _ _ explains allowed enabled with silent | ⟨operation, effective⟩
      · exact ⟨operations, silent⟩
      · refine ⟨operations ++ [operation], ?_⟩
        rw [object.after_concat, object.answers_concat]
        exact effective

end AmqpApps
