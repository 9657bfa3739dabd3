import AmqpApps.Fulfilment.Inventory
import Mathlib.Algebra.BigOperators.Group.Multiset.Basic
import Mathlib.Algebra.Order.Group.Int
import Mathlib.Algebra.Ring.Int.Defs

/-! # Where the stock goes

`_reserve` takes from the stock before it publishes. What it took is in a
published reservation, in a call still to publish, or gone with a publish that
raised.
-/

namespace AmqpApps.Fulfilment

def StockOutcome.quantityOf (sku : String) : StockOutcome → Int
  | reserved event => amountFor sku (event.sku, event.quantity)
  | unavailable _ => 0

def StockOutcome.isReserved : StockOutcome → Bool
  | reserved _ => true
  | unavailable _ => false

def quantity (sku : String) (outcomes : List StockOutcome) : Int :=
  (outcomes.map (StockOutcome.quantityOf sku)).sum

def Inventory.outcomes (state : Inventory) : List StockOutcome :=
  state.published.map PublishedStock.outcome

def Inventory.reservations (state : Inventory) : Nat :=
  state.outcomes.countP StockOutcome.isReserved

private theorem quantity_append (sku : String) (first second : List StockOutcome) :
    quantity sku (first ++ second) = quantity sku first + quantity sku second := by
  simp [quantity]

/-- What the calls have taken and not published. -/
def unpublished (sku : String) (calls : Multiset Reservation) : Int :=
  (calls.map fun call => if call.out then 0 else call.outcome.quantityOf sku).sum

private theorem unpublished_cons (sku : String) (call : Reservation)
    (calls : Multiset Reservation) :
    unpublished sku (call ::ₘ calls) =
      (if call.out then 0 else call.outcome.quantityOf sku) + unpublished sku calls := by
  simp [unpublished]

private theorem unpublished_erase (sku : String) {call : Reservation} {calls : Multiset Reservation}
    (member : call ∈ calls) :
    unpublished sku calls =
      (if call.out then 0 else call.outcome.quantityOf sku) +
        unpublished sku (calls.erase call) := by
  rw [← unpublished_cons, Multiset.cons_erase member]

def uncounted (calls : Multiset Reservation) : Nat :=
  calls.countP fun call => call.out ∧ call.outcome.isReserved

private theorem uncounted_cons (call : Reservation) (calls : Multiset Reservation) :
    uncounted (call ::ₘ calls) =
      uncounted calls + if call.out ∧ call.outcome.isReserved then 1 else 0 := by
  simp [uncounted, Multiset.countP_cons]

private theorem uncounted_erase {call : Reservation} {calls : Multiset Reservation}
    (member : call ∈ calls) :
    uncounted calls =
      uncounted (calls.erase call) + if call.out ∧ call.outcome.isReserved then 1 else 0 := by
  rw [← uncounted_cons, Multiset.cons_erase member]

/-- What has left the stock. -/
def Inventory.taken (state : Inventory) (sku : String) : Int :=
  quantity sku state.outcomes + unpublished sku state.calls + quantity sku state.history.failed

/-! ## What leaves the stock is accounted for -/

namespace Inventory

variable (state : Inventory) (sku : String)

private theorem balance_deliver (payment : PaymentCaptured) (correlation : String) :
    (state.perform (.deliver payment correlation)).service.stockOf sku +
        (state.perform (.deliver payment correlation)).taken sku =
      state.service.stockOf sku + state.taken sku := by
  rcases state.service.reserve_cases payment with ⟨error, ran, stock⟩ | ⟨event, ran, stock⟩ |
    ⟨ran, stock⟩
  · simp only [perform, ran, InventoryService.stockOf, stock]
    rfl
  · have nothing : unpublished sku (⟨.unavailable event, correlation, false⟩ ::ₘ state.calls) =
        unpublished sku state.calls := by
      simp [unpublished_cons, StockOutcome.quantityOf]
    simp only [perform, ran, InventoryService.stockOf, stock, taken, nothing]
    rfl
  · have more : unpublished sku (⟨.reserved ⟨payment.orderId, payment.customer, payment.sku,
        payment.quantity⟩, correlation, false⟩ ::ₘ state.calls) =
          amountFor sku (payment.sku, payment.quantity) + unpublished sku state.calls := by
      simp [unpublished_cons, StockOutcome.quantityOf]
    simp only [perform, ran, InventoryService.stockOf, stock, taken, more, outcomes]
    by_cases same : sku = payment.sku
    · subst same
      rw [Tally.of_insert_self, amountFor_self]
      omega
    · have different : payment.sku ≠ sku := fun equal => same equal.symm
      rw [Tally.of_insert_other _ _ same, amountFor_other _ different]
      omega

private theorem balance_publish {call : Reservation} (member : call ∈ state.calls)
    (pending : call.out = false) :
    (state.perform (.publish call)).service.stockOf sku +
        (state.perform (.publish call)).taken sku =
      state.service.stockOf sku + state.taken sku := by
  have split := unpublished_erase sku member
  simp only [pending, Bool.false_eq_true, if_false] at split
  simp only [perform, taken, outcomes, List.map_append, quantity_append, unpublished_cons,
    if_true, split]
  simp only [List.map_cons, List.map_nil, quantity, List.sum_cons, List.sum_nil]
  omega

private theorem balance_sent {call : Reservation} (member : call ∈ state.calls)
    (out : call.out = true) :
    (state.perform (.sent call)).service.stockOf sku + (state.perform (.sent call)).taken sku =
      state.service.stockOf sku + state.taken sku := by
  have split := unpublished_erase sku member
  simp only [out, if_true, zero_add] at split
  have stock : (state.service.sent call.outcome).stock = state.service.stock := by
    cases call.outcome <;> rfl
  simp only [perform, taken, split, InventoryService.stockOf, stock]
  rfl

private theorem balance_raise {call : Reservation} (member : call ∈ state.calls) :
    (state.perform (.raise call)).service.stockOf sku + (state.perform (.raise call)).taken sku =
      state.service.stockOf sku + state.taken sku := by
  have split := unpublished_erase sku member
  simp only [perform, taken, outcomes, quantity_append, split]
  cases call.out with
  | true =>
      simp only [quantity, if_true, List.map_nil, List.sum_nil]
      omega
  | false =>
      simp only [quantity, Bool.false_eq_true, if_false, List.map_cons, List.map_nil,
        List.sum_cons, List.sum_nil]
      omega

/-- Only `with_stock` changes what there is of a SKU, in the stock or taken from it. -/
theorem balance {action : InventoryAction} (enabled : state.Enabled action)
    (unstocked : ∀ quantity, action ≠ .withStock sku quantity) :
    (state.perform action).service.stockOf sku + (state.perform action).taken sku =
      state.service.stockOf sku + state.taken sku := by
  cases action with
  | withStock other quantity =>
      have different : sku ≠ other := by
        rintro rfl
        exact unstocked quantity rfl
      simp only [perform, InventoryService.withStock, InventoryService.stockOf,
        Tally.of_insert_other _ _ different]
      rfl
  | withFlakyWarehouse count => rfl
  | deliver payment correlation => exact state.balance_deliver sku payment correlation
  | publish call => exact state.balance_publish sku enabled.1 enabled.2
  | sent call => exact state.balance_sent sku enabled.1 enabled.2
  | raise call => exact state.balance_raise sku enabled

variable {state sku}

private theorem known_perform {action : InventoryAction} (known : sku ∈ state.service.stock) :
    sku ∈ (state.perform action).service.stock := by
  cases action with
  | withStock other quantity =>
      exact Finmap.mem_insert.mpr (.inr known)
  | deliver payment correlation =>
      rcases state.service.reserve_cases payment with ⟨error, ran, stock⟩ |
        ⟨event, ran, stock⟩ | ⟨ran, stock⟩
      · simp only [perform, ran, stock, known]
      · simp only [perform, ran, stock, known]
      · simp only [perform, ran, stock, Finmap.mem_insert, known, or_true]
  | sent call =>
      simp only [perform, InventoryService.sent]
      cases call.outcome <;> exact known
  | _ => exact known

theorem stocked_perform {action : InventoryAction}
    (unstocked : ∀ quantity, action ≠ .withStock sku quantity) (amount : Int) :
    (sku, amount) ∈ (state.perform action).history.stocked ↔
      (sku, amount) ∈ state.history.stocked := by
  cases action with
  | withStock other quantity =>
      have different : sku ≠ other := by
        rintro rfl
        exact unstocked quantity rfl
      simp [perform, different]
  | deliver payment correlation =>
      simp only [perform]
      split <;> rfl
  | _ => rfl

end Inventory

/-! ## Runs in which a SKU is stocked once -/

/-- The SKU is stocked before anything is known of it, and a publish that raises
has published nothing. -/
def StockedOnce (sku : String) (state : Inventory) : InventoryAction → Prop
  | .withStock other _ => other = sku → sku ∉ state.service.stock
  | .raise call => call.out = false
  | _ => True

instance (sku : String) (state : Inventory) (action : InventoryAction) :
    Decidable (StockedOnce sku state action) := by
  rcases action with ⟨⟩ <;> unfold StockedOnce <;> infer_instance

private theorem Inventory.counted {state : Inventory} {action : InventoryAction} {sku : String}
    (counted : state.service.reserved + uncounted state.calls = state.reservations)
    (once : StockedOnce sku state action) (enabled : state.Enabled action) :
    (state.perform action).service.reserved + uncounted (state.perform action).calls =
      (state.perform action).reservations := by
  cases action with
  | withStock other quantity => exact counted
  | withFlakyWarehouse count => exact counted
  | deliver payment correlation =>
      have kept := state.service.reserve_reserved payment
      simp only [perform]
      split
      · rw [kept]
        exact counted
      · simp only [kept, uncounted_cons, Bool.false_eq_true, false_and, if_false]
        exact counted
  | publish call =>
      rw [uncounted_erase enabled.1] at counted
      simp only [enabled.2, Bool.false_eq_true, false_and, if_false] at counted
      have more : (state.perform (.publish call)).reservations =
          state.reservations + if call.outcome.isReserved then 1 else 0 := by
        simp only [perform, reservations, outcomes, List.map_append, List.countP_append]
        simp [List.countP_cons]
      rw [more, ← counted]
      simp only [perform, uncounted_cons, true_and]
      omega
  | sent call =>
      rw [uncounted_erase enabled.1] at counted
      cases kind : call.outcome with
      | reserved event =>
          simp only [enabled.2, kind, StockOutcome.isReserved, true_and, if_true] at counted
          simp only [perform, kind, InventoryService.sent]
          change state.service.reserved + 1 + uncounted (state.calls.erase call) =
            state.reservations
          omega
      | unavailable event =>
          simp only [kind, StockOutcome.isReserved, Bool.false_eq_true, and_false, if_false]
            at counted
          simp only [perform, kind, InventoryService.sent]
          exact counted
  | raise call =>
      have pending : call.out = false := once
      rw [uncounted_erase enabled] at counted
      simp only [pending, Bool.false_eq_true, false_and, if_false] at counted
      exact counted

structure Conserved (sku : String) (state : Inventory) : Prop where
  unknown : sku ∉ state.service.stock →
    state.taken sku = 0 ∧ ∀ quantity, (sku, quantity) ∉ state.history.stocked
  stocked : ∀ quantity, (sku, quantity) ∈ state.history.stocked →
    state.service.stockOf sku + state.taken sku = quantity
  counted : state.service.reserved + uncounted state.calls = state.reservations

private theorem Conserved.initial (sku : String) : Conserved sku Inventory.initial where
  unknown _ := ⟨rfl, by simp [Inventory.initial]⟩
  stocked := by simp [Inventory.initial]
  counted := rfl

namespace Conserved

variable {sku : String} {state : Inventory}

private theorem withStock (conserved : Conserved sku state) (quantity : Int)
    (once : sku ∉ state.service.stock) :
    Conserved sku (state.perform (.withStock sku quantity)) where
  unknown unknown := absurd (Finmap.mem_insert.mpr (.inl rfl)) unknown
  stocked amount member := by
    have nothing := conserved.unknown once
    rcases List.mem_append.mp member with old | new
    · exact absurd old (nothing.2 amount)
    · have equal : amount = quantity := by simpa using new
      have untaken : state.taken sku = 0 := nothing.1
      simp only [Inventory.perform, InventoryService.withStock, InventoryService.stockOf,
        Tally.of_insert_self]
      change quantity + state.taken sku = amount
      omega
  counted := conserved.counted

private theorem kept (conserved : Conserved sku state) (action : InventoryAction)
    (once : StockedOnce sku state action) (enabled : state.Enabled action) :
    Conserved sku (state.perform action) := by
  by_cases stocks : ∃ quantity, action = .withStock sku quantity
  · rcases stocks with ⟨quantity, rfl⟩
    exact conserved.withStock quantity (once rfl)
  · have unstocked : ∀ quantity, action ≠ .withStock sku quantity :=
      fun quantity same => stocks ⟨quantity, same⟩
    have balance := state.balance sku enabled unstocked
    constructor
    · intro unknown
      have before : sku ∉ state.service.stock :=
        fun known => unknown (Inventory.known_perform known)
      have nothing := conserved.unknown before
      rw [InventoryService.stockOf, InventoryService.stockOf,
        Tally.of_eq_zero_of_notMem unknown, Tally.of_eq_zero_of_notMem before] at balance
      constructor
      · omega
      · intro quantity stocked
        exact nothing.2 quantity ((Inventory.stocked_perform unstocked quantity).mp stocked)
    · intro quantity stocked
      rw [balance]
      exact conserved.stocked quantity ((Inventory.stocked_perform unstocked quantity).mp stocked)
    · exact Inventory.counted conserved.counted once enabled

end Conserved

/-- With no call in progress, a SKU's stock and its published reservations make
up what was stocked, and the reservations are counted, exactly when the
reservations whose publish raised were for nothing. -/
theorem stock_conserved_iff {sku : String} {state : Inventory}
    (reached : inventory.Reached (StockedOnce sku) state) {stocked : Int}
    (once : (sku, stocked) ∈ state.history.stocked) (idle : state.calls = 0) :
    (state.service.stockOf sku + quantity sku state.outcomes = stocked ∧
      state.service.reserved = state.reservations) ↔
    quantity sku state.history.failed = 0 := by
  have conserved : Conserved sku state :=
    reached.invariant (Conserved sku) (fun _ first => by cases first; exact .initial sku)
      fun _ action conserved once enabled => conserved.kept action once enabled
  have balance := conserved.stocked stocked once
  have counted := conserved.counted
  rw [idle] at counted
  simp only [Inventory.taken, idle, unpublished, Multiset.map_zero, Multiset.sum_zero] at balance
  constructor
  · intro whole
    omega
  · intro nothing
    constructor
    · omega
    · simpa [uncounted] using counted

def payment : PaymentCaptured := ⟨"order-1", "ada", "WIDGET", 2, 42⟩

def reserveTwo : Reservation :=
  ⟨.reserved ⟨"order-1", "ada", "WIDGET", 2⟩, "order-1", false⟩

/-- A warehouse that fails once, and a publish that does not. -/
theorem flaky_warehouse_conserves : ∃ state : Inventory, state.calls = 0 ∧
    state.service.stockOf "WIDGET" = 8 ∧
      ((state.service.stockOf "WIDGET" + quantity "WIDGET" state.outcomes = 10 ∧
        state.service.reserved = state.reservations) ↔
      quantity "WIDGET" state.history.failed = 0) := by
  have reached : inventory.Reached (StockedOnce "WIDGET") _ :=
    .of_run [.withStock "WIDGET" 10, .withFlakyWarehouse 1, .deliver payment "order-1",
      .deliver payment "order-1", .publish reserveTwo, .sent { reserveTwo with out := true }]
      (.start rfl) rfl
  exact ⟨_, by decide, by decide, stock_conserved_iff reached (.head _) (by decide)⟩

theorem stock_leaks_with_failed_publish : ¬ ∀ sku stocked, ∀ state : Inventory,
    inventory.Reached (StockedOnce sku) state → (sku, stocked) ∈ state.history.stocked →
      state.calls = 0 →
        state.service.stockOf sku + quantity sku state.outcomes = stocked ∧
          state.service.reserved = state.reservations := by
  intro conserved
  have reached : inventory.Reached (StockedOnce "WIDGET") _ :=
    .of_run [.withStock "WIDGET" 10, .deliver payment "order-1", .raise reserveTwo]
      (.start rfl) rfl
  have whole := (conserved "WIDGET" 10 _ reached (.head _) (by decide)).1
  revert whole
  decide

end AmqpApps.Fulfilment
