import AmqpApps.Foundation.Tally
import AmqpApps.Foundation.TransitionSystem
import AmqpApps.Fulfilment.Contracts
import Mathlib.Data.Multiset.Basic

/-! # Inventory: the stock of one `InventoryService`

A call of `_reserve` asks the warehouse, decides and takes from the stock
without interruption, and then awaits one publish.
-/

namespace AmqpApps.Fulfilment

/-! ## The code between the awaits -/

structure TimeoutError where
  message : String
deriving DecidableEq

inductive StockOutcome
  | reserved (event : StockReserved)
  | unavailable (event : StockUnavailable)
deriving DecidableEq

def StockOutcome.orderId : StockOutcome → String
  | reserved event => event.orderId
  | unavailable event => event.orderId

structure InventoryService where
  stock : Tally String Int
  warehouseCalls : Int
  failuresToSimulate : Int
  reserved : Nat
  rejected : Nat

namespace InventoryService

def new : InventoryService := ⟨∅, 0, 0, 0, 0⟩

def withStock (service : InventoryService) (sku : String) (quantity : Int) :
    InventoryService :=
  { service with stock := service.stock.insert sku quantity }

def withFlakyWarehouse (service : InventoryService) (count : Int) : InventoryService :=
  { service with failuresToSimulate := count }

/-- `_reserve` up to its publish: what it raises, or what it goes on to publish. -/
def reserve (service : InventoryService) (payment : PaymentCaptured) :
    InventoryService × Except TimeoutError StockOutcome :=
  let called := { service with warehouseCalls := service.warehouseCalls + 1 }
  if called.warehouseCalls ≤ called.failuresToSimulate then
    (called, .error ⟨"warehouse did not respond"⟩)
  else
    let available := called.stock.of payment.sku
    if available < payment.quantity then
      (called, .ok (.unavailable
        ⟨payment.orderId, payment.customer, payment.sku, s!"only {available} left"⟩))
    else
      ({ called with stock := called.stock.insert payment.sku (available - payment.quantity) },
        .ok (.reserved ⟨payment.orderId, payment.customer, payment.sku, payment.quantity⟩))

def Answers (service : InventoryService) : Prop :=
  service.failuresToSimulate < service.warehouseCalls + 1

instance (service : InventoryService) : Decidable service.Answers :=
  inferInstanceAs (Decidable (_ < _))

def sent (service : InventoryService) : StockOutcome → InventoryService
  | .reserved _ => { service with reserved := service.reserved + 1 }
  | .unavailable _ => { service with rejected := service.rejected + 1 }

def stockOf (service : InventoryService) (sku : String) : Int := service.stock.of sku

/-- The three things `_reserve` does: nothing, when the warehouse fails; a
refusal, with the stock as it was; or a reservation taken from the stock. -/
theorem reserve_cases (service : InventoryService) (payment : PaymentCaptured) :
    (∃ error, (service.reserve payment).2 = .error error ∧
      (service.reserve payment).1.stock = service.stock) ∨
    (∃ event, (service.reserve payment).2 = .ok (.unavailable event) ∧
      (service.reserve payment).1.stock = service.stock) ∨
    ((service.reserve payment).2 = .ok (.reserved
        ⟨payment.orderId, payment.customer, payment.sku, payment.quantity⟩) ∧
      (service.reserve payment).1.stock =
        service.stock.insert payment.sku (service.stock.of payment.sku - payment.quantity)) := by
  rw [reserve]
  by_cases fails : service.warehouseCalls + 1 ≤ service.failuresToSimulate
  · exact .inl ⟨⟨"warehouse did not respond"⟩, by simp [fails]⟩
  · by_cases short : service.stock.of payment.sku < payment.quantity
    · exact .inr (.inl ⟨_, by simp only [fails, short, if_true, if_false]; trivial⟩)
    · exact .inr (.inr (by simp only [fails, short, if_false]; trivial))

theorem reserve_of_silent (service : InventoryService) (payment : PaymentCaptured)
    (silent : ¬service.Answers) :
    (∃ error, (service.reserve payment).2 = .error error) ∧
      (service.reserve payment).1.stock = service.stock := by
  have fails : service.warehouseCalls + 1 ≤ service.failuresToSimulate := not_lt.mp silent
  have raised : service.reserve payment =
      ({ service with warehouseCalls := service.warehouseCalls + 1 },
        .error ⟨"warehouse did not respond"⟩) := if_pos fails
  rw [raised]
  exact ⟨⟨_, rfl⟩, rfl⟩

@[simp] theorem reserve_reserved (service : InventoryService) (payment : PaymentCaptured) :
    (service.reserve payment).1.reserved = service.reserved := by
  rw [reserve]
  simp only
  split
  · rfl
  · split <;> rfl

end InventoryService

/-! ## The system -/

structure Reservation where
  outcome : StockOutcome
  correlation : String
  out : Bool
deriving DecidableEq

structure PublishedStock where
  outcome : StockOutcome
  correlation : String
deriving DecidableEq

/-- What an onlooker writes down; nothing reads it. -/
structure StockHistory where
  stocked : List (String × Int)
  /-- The outcomes whose publish raised with nothing published. -/
  failed : List StockOutcome

structure Inventory where
  service : InventoryService
  calls : Multiset Reservation
  published : List PublishedStock
  history : StockHistory

inductive InventoryAction
  | withStock (sku : String) (quantity : Int)
  | withFlakyWarehouse (count : Int)
  /-- A `PaymentCaptured` is handled, for the first time or again. -/
  | deliver (payment : PaymentCaptured) (correlation : String)
  /-- The broker takes what a call publishes. -/
  | publish (call : Reservation)
  /-- The publish returns. -/
  | sent (call : Reservation)
  /-- The publish raises. -/
  | raise (call : Reservation)
deriving DecidableEq

namespace Inventory

def initial : Inventory := ⟨.new, 0, [], ⟨[], []⟩⟩

def Enabled (state : Inventory) : InventoryAction → Prop
  | .withStock .. | .withFlakyWarehouse _ | .deliver .. => True
  | .publish call => call ∈ state.calls ∧ call.out = false
  | .sent call => call ∈ state.calls ∧ call.out = true
  | .raise call => call ∈ state.calls

instance (state : Inventory) (action : InventoryAction) : Decidable (state.Enabled action) := by
  rcases action with ⟨⟩ <;> unfold Enabled <;> infer_instance

def perform (state : Inventory) : InventoryAction → Inventory
  | .withStock sku quantity =>
      { state with
        service := state.service.withStock sku quantity
        history := { state.history with
          stocked := state.history.stocked ++ [(sku, quantity)] } }
  | .withFlakyWarehouse count =>
      { state with service := state.service.withFlakyWarehouse count }
  | .deliver payment correlation =>
      let ran := state.service.reserve payment
      match ran.2 with
      | .error _ => { state with service := ran.1 }
      | .ok outcome =>
          { state with
            service := ran.1
            calls := ⟨outcome, correlation, false⟩ ::ₘ state.calls }
  | .publish call =>
      { state with
        published := state.published ++ [⟨call.outcome, call.correlation⟩]
        calls := { call with out := true } ::ₘ state.calls.erase call }
  | .sent call =>
      { state with
        service := state.service.sent call.outcome
        calls := state.calls.erase call }
  | .raise call =>
      { state with
        calls := state.calls.erase call
        history := { state.history with
          failed := state.history.failed ++ (if call.out then [] else [call.outcome]) } }

end Inventory

def inventory : TransitionSystem Inventory InventoryAction where
  Initial state := state = Inventory.initial
  Enabled := Inventory.Enabled
  perform := Inventory.perform

instance (state : Inventory) (action : InventoryAction) :
    Decidable (inventory.Enabled state action) :=
  inferInstanceAs (Decidable (state.Enabled action))

end AmqpApps.Fulfilment
