import AmqpApps.Fulfilment.HandledAgain

/-! # The simulated warehouse

`with_flaky_warehouse` sets a threshold, and `_reserve` compares with it the number of
all its calls, not of those since.
-/

namespace AmqpApps.Fulfilment

def InventoryAction.isCall : InventoryAction → Bool
  | .deliver .. => true
  | _ => false

def LeavesThreshold (_ : Inventory) : InventoryAction → Prop
  | .withFlakyWarehouse _ => False
  | _ => True

instance (state : Inventory) (action : InventoryAction) :
    Decidable (LeavesThreshold state action) := by
  rcases action with ⟨⟩ <;> unfold LeavesThreshold <;> infer_instance

namespace Inventory

/-- A call now raises `TimeoutError`, changes no stock and publishes nothing. -/
structure TimesOut (state : Inventory) (payment : PaymentCaptured) (correlation : String) :
    Prop where
  raised : (state.service.reserve payment).2 = .error ⟨"warehouse did not respond"⟩
  stock : (state.perform (.deliver payment correlation)).service.stock = state.service.stock
  calls : (state.perform (.deliver payment correlation)).calls = state.calls
  published : (state.perform (.deliver payment correlation)).published = state.published

/-- After `with_flaky_warehouse`, the next `count` calls time out and the later ones do
not, until it is called again. -/
def FailsAsTold (state : Inventory) (count : Int) : Prop :=
  ∀ actions later,
    inventory.run LeavesThreshold (state.perform (.withFlakyWarehouse count)) actions =
        some later →
      ∀ payment correlation,
        (actions.countP InventoryAction.isCall < count → later.TimesOut payment correlation) ∧
        (count ≤ actions.countP InventoryAction.isCall →
          ∃ outcome, (later.service.reserve payment).2 = .ok outcome)

/-! ## The count of calls -/

private theorem warehouseCalls_perform (state : Inventory) (action : InventoryAction) :
    (state.perform action).service.warehouseCalls =
      state.service.warehouseCalls + action.isCall.toNat := by
  cases action with
  | deliver payment correlation =>
      have counted := (state.service.reserve_warehouse payment).2
      simp only [perform]
      split <;> exact counted
  | sent call =>
      simp only [perform, InventoryService.sent]
      cases call.outcome <;> exact (Int.add_zero _).symm
  | _ => exact (Int.add_zero _).symm

private theorem failuresToSimulate_perform (state : Inventory) {action : InventoryAction}
    (leaves : LeavesThreshold state action) :
    (state.perform action).service.failuresToSimulate = state.service.failuresToSimulate := by
  cases action with
  | withFlakyWarehouse count => exact leaves.elim
  | deliver payment correlation =>
      have same := (state.service.reserve_warehouse payment).1
      simp only [perform]
      split <;> exact same
  | sent call =>
      simp only [perform, InventoryService.sent]
      cases call.outcome <;> rfl
  | _ => rfl

private theorem warehouseCalls_run {Allowed : Inventory → InventoryAction → Prop}
    [∀ state action, Decidable (Allowed state action)] (actions : List InventoryAction)
    {first last : Inventory} (ran : inventory.run Allowed first actions = some last) :
    last.service.warehouseCalls =
      first.service.warehouseCalls + actions.countP InventoryAction.isCall := by
  induction actions generalizing first with
  | nil =>
      cases ran
      simp
  | cons action actions induction =>
      rcases TransitionSystem.of_run_cons ran with ⟨-, -, rest⟩
      have step : (inventory.perform first action).service.warehouseCalls = _ :=
        warehouseCalls_perform first action
      rw [induction rest, step, List.countP_cons]
      cases action.isCall with
      | true =>
          simp only [Bool.toNat_true, if_true]
          omega
      | false =>
          simp only [Bool.toNat_false, Bool.false_eq_true, if_false]
          omega

private theorem failuresToSimulate_run (actions : List InventoryAction) {first last : Inventory}
    (ran : inventory.run LeavesThreshold first actions = some last) :
    last.service.failuresToSimulate = first.service.failuresToSimulate := by
  induction actions generalizing first with
  | nil =>
      cases ran
      rfl
  | cons action actions induction =>
      rcases TransitionSystem.of_run_cons ran with ⟨leaves, -, rest⟩
      rw [induction rest]
      exact failuresToSimulate_perform first leaves

/-- After some calls the next one fails if the threshold is still ahead of the count. -/
theorem answers_run {state later : Inventory} {count : Int} {actions : List InventoryAction}
    (ran : inventory.run LeavesThreshold (state.perform (.withFlakyWarehouse count)) actions =
      some later) :
    later.service.Answers ↔
      count ≤ state.service.warehouseCalls + actions.countP InventoryAction.isCall := by
  have calls := warehouseCalls_run actions ran
  have threshold := failuresToSimulate_run actions ran
  simp only [perform, InventoryService.withFlakyWarehouse] at calls threshold
  rw [InventoryService.Answers, calls, threshold]
  omega

private theorem timesOut_of_silent {state : Inventory} (payment : PaymentCaptured)
    (correlation : String) (silent : ¬state.service.Answers) :
    state.TimesOut payment correlation := by
  have fails : state.service.warehouseCalls + 1 ≤ state.service.failuresToSimulate :=
    not_lt.mp silent
  rcases deliver_of_silent payment correlation silent with ⟨performed, same⟩
  constructor
  · simp only [InventoryService.reserve, fails, if_true]
  · rw [performed]
    exact same
  · rw [performed]
  · rw [performed]

private theorem run_calls (payment : PaymentCaptured) (correlation : String) (calls : Nat)
    (state : Inventory) :
    ∃ later, inventory.run LeavesThreshold state
      (List.replicate calls (.deliver payment correlation)) = some later := by
  induction calls generalizing state with
  | zero => exact ⟨state, rfl⟩
  | succ calls induction =>
      rcases induction (state.perform (.deliver payment correlation)) with ⟨later, ran⟩
      refine ⟨later, ?_⟩
      rw [List.replicate_succ, TransitionSystem.run, if_pos ⟨trivial, trivial⟩]
      exact ran

end Inventory

/-- `with_flaky_warehouse` makes the next calls fail, as it says, if it asks for none, or
if none was made before. -/
theorem fails_as_told_iff {history : List InventoryAction} {state : Inventory}
    (ran : inventory.run TransitionSystem.anyStep .initial history = some state) (count : Int) :
    state.FailsAsTold count ↔ count ≤ 0 ∨ history.countP InventoryAction.isCall = 0 := by
  have made := Inventory.warehouseCalls_run history ran
  have fresh : Inventory.initial.service.warehouseCalls = 0 := rfl
  rw [fresh, Int.zero_add] at made
  constructor
  · intro told
    by_contra neither
    rw [not_or] at neither
    -- All calls but the last of those that are to fail have been made.
    rcases Inventory.run_calls payment "order-1" (count - 1).toNat
      (state.perform (.withFlakyWarehouse count)) with ⟨later, ran⟩
    have calls : (List.replicate (count - 1).toNat
        (InventoryAction.deliver payment "order-1")).countP InventoryAction.isCall =
          (count - 1).toNat := by
      simp [List.countP_replicate, InventoryAction.isCall]
    have answers := (Inventory.answers_run ran).mpr (by omega)
    have next := (told _ later ran payment "order-1").1 (by omega)
    rcases InventoryService.decisions_of_answer payment answers with
      ⟨decision, -, -, -, -, decided, -⟩
    have raised := next.raised
    rw [decided] at raised
    cases raised
  · intro either actions later ran payment correlation
    have answers := Inventory.answers_run ran
    constructor
    · intro early
      apply Inventory.timesOut_of_silent
      rw [answers]
      omega
    · intro late
      have answering : later.service.Answers := answers.mpr (by omega)
      rcases InventoryService.decisions_of_answer payment answering with
        ⟨decision, -, -, -, -, decided, -⟩
      exact ⟨decision.outcome, decided⟩

/-- A warehouse that nobody has called yet. -/
theorem first_calls_fail : ∃ state : Inventory,
    inventory.run TransitionSystem.anyStep .initial [.withStock "WIDGET" 10] = some state ∧
      state.FailsAsTold 2 := by
  have ran : inventory.run TransitionSystem.anyStep .initial [.withStock "WIDGET" 10] =
    some _ := rfl
  exact ⟨_, ran, (fails_as_told_iff ran 2).mpr (.inr rfl)⟩

/-- Two calls use up a threshold of two before it is set. -/
theorem later_calls_do_not_fail : ∃ state : Inventory,
    inventory.run TransitionSystem.anyStep .initial
      [.withStock "WIDGET" 10, .deliver payment "order-1", .deliver payment "order-1"] =
        some state ∧
      ¬state.FailsAsTold 2 := by
  refine ⟨_, rfl, ?_⟩
  intro told
  have next := (told [] _ rfl payment "order-1").1 (by decide)
  exact absurd next.raised (by decide)

end AmqpApps.Fulfilment
