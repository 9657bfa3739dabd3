import Mathlib.Init

/-! # Code whose every operation may raise

Statements with `try`, `except` and `finally` over operations of any kind, what is
left to do of a block as a tree, and the conditions under which a block ends as it
should wherever an exception strikes.
-/

namespace AmqpApps

inductive Block (Op : Type u)
  | call (op : Op)
  | seq (first second : Block Op)
  /-- Raise the exception being handled. -/
  | raise
  /-- `try` the body; `except` any exception, the handler; and `finally` the last. -/
  | guarded (body handler last : Block Op)

inductive Outcome
  | returned
  | raised
deriving DecidableEq

/-- What is left to do: at each operation, if it returns and if it raises. -/
inductive Script (Op : Type u)
  | done (outcome : Outcome)
  | next (op : Op) (returned raised : Script Op)
deriving DecidableEq

namespace Block

variable {Op : Type u}

/-- The block with what follows it. After a handler that completes, the code goes on
as if nothing had been raised; an exception leaves only after the last part. -/
def script : Block Op → Script Op → Script Op → Script Op
  | call op, returned, raised => .next op returned raised
  | seq first second, returned, raised =>
      first.script (second.script returned raised) raised
  | raise, _, raised => raised
  | guarded body handler last, returned, raised =>
      body.script (last.script returned raised)
        (handler.script (last.script returned raised) (last.script raised raised))

def start (block : Block Op) : Script Op := block.script (.done .returned) (.done .raised)

end Block

/-- What an operation leaves when it returns, and what it may leave when it raises. -/
structure Effects (Op : Type u) (State : Type v) where
  after : Op → State → State
  Raises : Op → State → State → Prop

variable {Op : Type u} {State : Type v}

def Script.Ensures (effects : Effects Op State) (Always : State → Prop)
    (Ends : Outcome → State → Prop) : Script Op → State → Prop
  | done outcome, state => Always state ∧ Ends outcome state
  | next op returned raised, state =>
      Always state ∧ returned.Ensures effects Always Ends (effects.after op state) ∧
        ∀ left, effects.Raises op state left → raised.Ensures effects Always Ends left

theorem Script.Ensures.always {effects : Effects Op State} {Always : State → Prop}
    {Ends : Outcome → State → Prop} {script : Script Op} {state : State}
    (ensures : script.Ensures effects Always Ends state) : Always state := by
  cases script with
  | done outcome => exact ensures.1
  | next op returned raised => exact ensures.1

namespace Block

variable {effects : Effects Op State} {Always : State → Prop}

/-- The weakest condition under which something holds all along a block, the block
returns with one postcondition and raises with the other. -/
def Meets (effects : Effects Op State) (Always : State → Prop) :
    Block Op → (State → Prop) → (State → Prop) → State → Prop
  | call op, Returned, Raised, state =>
      Always state ∧ Returned (effects.after op state) ∧
        ∀ left, effects.Raises op state left → Raised left
  | seq first second, Returned, Raised, state =>
      first.Meets effects Always (second.Meets effects Always Returned Raised) Raised state
  | raise, _, Raised, state => Raised state
  | guarded body handler last, Returned, Raised, state =>
      body.Meets effects Always (last.Meets effects Always Returned Raised)
        (handler.Meets effects Always (last.Meets effects Always Returned Raised)
          (last.Meets effects Always Raised Raised)) state

theorem Meets.mono {block : Block Op} {Returned Returned' Raised Raised' : State → Prop}
    (returned : ∀ state, Returned state → Returned' state)
    (raised : ∀ state, Raised state → Raised' state) :
    ∀ {state}, block.Meets effects Always Returned Raised state →
      block.Meets effects Always Returned' Raised' state := by
  induction block generalizing Returned Returned' Raised Raised' with
  | call op => exact fun meets =>
      ⟨meets.1, returned _ meets.2.1, fun left may => raised left (meets.2.2 left may)⟩
  | seq first second firstInduction secondInduction =>
      exact firstInduction (fun _ => secondInduction returned raised) raised
  | raise => exact raised _
  | guarded body handler last bodyInduction handlerInduction lastInduction =>
      exact bodyInduction (fun _ => lastInduction returned raised) fun _ =>
        handlerInduction (fun _ => lastInduction returned raised) fun _ =>
          lastInduction raised raised

theorem ensures_script (block : Block Op) {Ends : Outcome → State → Prop} :
    ∀ {returned raised : Script Op} {state : State},
      (block.script returned raised).Ensures effects Always Ends state ↔
        block.Meets effects Always (returned.Ensures effects Always Ends)
          (raised.Ensures effects Always Ends) state := by
  induction block with
  | call op => exact Iff.rfl
  | seq first second firstInduction secondInduction =>
      intro returned raised state
      have rest : (second.script returned raised).Ensures effects Always Ends =
          second.Meets effects Always (returned.Ensures effects Always Ends)
            (raised.Ensures effects Always Ends) := by
        funext after
        exact propext secondInduction
      rw [script, firstInduction, rest]
      rfl
  | raise => exact Iff.rfl
  | guarded body handler last bodyInduction handlerInduction lastInduction =>
      intro returned raised state
      have final : ∀ {onward}, (last.script onward raised).Ensures effects Always Ends =
          last.Meets effects Always (onward.Ensures effects Always Ends)
            (raised.Ensures effects Always Ends) := by
        intro onward
        funext after
        exact propext lastInduction
      have handled : (handler.script (last.script returned raised)
          (last.script raised raised)).Ensures effects Always Ends =
            handler.Meets effects Always ((last.script returned raised).Ensures effects Always Ends)
              ((last.script raised raised).Ensures effects Always Ends) := by
        funext after
        exact propext handlerInduction
      rw [script, bodyInduction, handled, final, final]
      rfl

/-- What a block meets, its script ensures. -/
theorem Meets.ensures {block : Block Op} {Ends : Outcome → State → Prop} {state : State}
    (meets : block.Meets effects Always
      (fun after => Always after ∧ Ends .returned after)
      (fun after => Always after ∧ Ends .raised after) state) :
    block.start.Ensures effects Always Ends state :=
  block.ensures_script.mpr meets

end Block

end AmqpApps
