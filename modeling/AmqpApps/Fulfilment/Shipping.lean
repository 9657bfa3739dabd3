import AmqpApps.Foundation.KeyedBags
import AmqpApps.Foundation.TransitionSystem
import AmqpApps.Fulfilment.Contracts

/-! # Shipping

A call of `_dispatch` awaits one publish, and keeps nothing but a count.
-/

namespace AmqpApps.Fulfilment

/-! ## The code -/

structure ShippingService where
  shipped : Nat

namespace ShippingService

def new : ShippingService := ⟨0⟩

/-- The id of an order is `ord-` and eight hexadecimal digits. -/
def tracking (orderId : String) : String :=
  "TRK-" ++ String.ofList ((orderId.toList.drop 4).map Char.toUpper)

def dispatch (reservation : StockReserved) : OrderShipped :=
  ⟨reservation.orderId, reservation.customer, tracking reservation.orderId⟩

def sent (service : ShippingService) : ShippingService := ⟨service.shipped + 1⟩

end ShippingService

/-! ## The system -/

structure Dispatch where
  event : OrderShipped
  correlation : String
  out : Bool
deriving DecidableEq

structure PublishedShipment where
  event : OrderShipped
  correlation : String
deriving DecidableEq

structure Shipping where
  service : ShippingService
  calls : Multiset Dispatch
  published : List PublishedShipment
  /-- The messages handled so far; nothing reads it. -/
  handled : List StockReserved

inductive ShippingAction
  /-- A `StockReserved` is handled, for the first time or again. -/
  | deliver (reservation : StockReserved) (correlation : String)
  /-- The broker takes what a call publishes. -/
  | publish (call : Dispatch)
  /-- The publish returns. -/
  | sent (call : Dispatch)
deriving DecidableEq

namespace Shipping

def initial : Shipping := ⟨.new, 0, [], []⟩

def Enabled (state : Shipping) : ShippingAction → Prop
  | .deliver .. => True
  | .publish call => call ∈ state.calls ∧ call.out = false
  | .sent call => call ∈ state.calls ∧ call.out = true

instance (state : Shipping) (action : ShippingAction) : Decidable (state.Enabled action) := by
  rcases action with ⟨⟩ <;> unfold Enabled <;> infer_instance

def perform (state : Shipping) : ShippingAction → Shipping
  | .deliver reservation correlation =>
      { state with
        calls := ⟨ShippingService.dispatch reservation, correlation, false⟩ ::ₘ state.calls
        handled := state.handled ++ [reservation] }
  | .publish call =>
      { state with
        published := state.published ++ [⟨call.event, call.correlation⟩]
        calls := { call with out := true } ::ₘ state.calls.erase call }
  | .sent call =>
      { state with
        service := state.service.sent
        calls := state.calls.erase call }

def shipments (state : Shipping) (orderId : String) : Nat :=
  (state.published.countP fun shipment => shipment.event.orderId == orderId) +
    howMany (fun call => !call.out && call.event.orderId == orderId) state.calls

end Shipping

def shipping : TransitionSystem Shipping ShippingAction where
  Initial state := state = Shipping.initial
  Enabled := Shipping.Enabled
  perform := Shipping.perform

instance (state : Shipping) (action : ShippingAction) :
    Decidable (shipping.Enabled state action) :=
  inferInstanceAs (Decidable (state.Enabled action))

theorem Shipping.shipments_eq {Allowed : Shipping → ShippingAction → Prop} {state : Shipping}
    (reached : shipping.Reached Allowed state) (orderId : String) :
    state.shipments orderId =
      state.handled.countP fun reservation => reservation.orderId == orderId := by
  induction reached with
  | start initial =>
      cases initial
      rfl
  | @next state action _ _ enabled induction =>
      rw [shipments] at induction ⊢
      cases action with
      | deliver reservation correlation =>
          simp only [shipping, perform, howMany_cons, countP_concat, ← induction,
            ShippingService.dispatch, Bool.not_false, Bool.true_and]
          omega
      | publish call =>
          have split := howMany_erase
            (fun call : Dispatch => !call.out && call.event.orderId == orderId) enabled.1
          simp only [enabled.2, Bool.not_false, Bool.true_and] at split
          simp only [shipping, perform, howMany_cons, countP_concat, ← induction, split,
            Bool.not_true, Bool.false_and, Bool.toNat_false]
          omega
      | sent call =>
          have split := howMany_erase
            (fun call : Dispatch => !call.out && call.event.orderId == orderId) enabled.1
          simp only [enabled.2, Bool.not_true, Bool.false_and, Bool.toNat_false] at split
          simp only [shipping, perform, ← induction, split]
          omega

end AmqpApps.Fulfilment
