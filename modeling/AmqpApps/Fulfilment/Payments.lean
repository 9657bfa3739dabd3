import AmqpApps.Foundation.Lease
import AmqpApps.Foundation.TransitionSystem
import AmqpApps.Fulfilment.Contracts
import Mathlib.Data.Multiset.Bind

/-! # Payments: a fleet that shares one store

Any number of instances of `PaymentsService` handle `OrderPlaced` messages. A
handler awaits the store, the broker and the store again, and returns; between
two awaits it runs undisturbed. Time is counted in microseconds, as `timedelta`
does.
-/

namespace AmqpApps.Fulfilment

/-! ## The code between the awaits -/

def automaticLimit : ℚ := 1000

def retryAttempts : Nat := 4

def minute : Nat := 60 * 1000000

def chargedTerms : Lease.Terms Nat where
  claimTimeout := 2 * minute
  retention := some (7 * 24 * 60 * minute)

inductive PaymentOutcome
  | captured (event : PaymentCaptured)
  | declined (event : PaymentDeclined)
deriving DecidableEq

def PaymentOutcome.orderId : PaymentOutcome → String
  | captured event => event.orderId
  | declined event => event.orderId

/-- What `_charge` publishes about an order it has claimed. -/
def charge (order : OrderPlaced) : PaymentOutcome :=
  if order.total > automaticLimit then
    .declined ⟨order.orderId, order.customer, "over the automatic limit"⟩
  else
    .captured ⟨order.orderId, order.customer, order.sku, order.quantity, order.total⟩

@[simp] theorem charge_orderId (order : OrderPlaced) :
    (charge order).orderId = order.orderId := by
  rw [charge]
  split <;> rfl

structure PaymentsService where
  captured : Nat
  declined : Nat
  duplicatesRefused : Nat

namespace PaymentsService

def started : PaymentsService := ⟨0, 0, 0⟩

def refuse (service : PaymentsService) : PaymentsService :=
  { service with duplicatesRefused := service.duplicatesRefused + 1 }

def sent (service : PaymentsService) : PaymentOutcome → PaymentsService
  | .captured _ => { service with captured := service.captured + 1 }
  | .declined _ => { service with declined := service.declined + 1 }

end PaymentsService

/-! ## The system -/

structure Delivery where
  order : OrderPlaced
  correlation : String
  attempt : Nat
deriving DecidableEq

inductive Await
  | claim
  /-- The publish, which the broker may have taken. -/
  | publish (out : Bool)
  | confirmation
  /-- Nothing: it has returned `accept()`, and is yet to be acknowledged. -/
  | acknowledgement
deriving DecidableEq

structure Handler where
  service : Nat
  delivery : Delivery
  await : Await
deriving DecidableEq

def Handler.orderId (handler : Handler) : String := handler.delivery.order.orderId

def Handler.AtWork (handler : Handler) : Prop :=
  handler.await ≠ .claim ∧ handler.await ≠ .acknowledgement

instance (handler : Handler) : Decidable handler.AtWork :=
  inferInstanceAs (Decidable (_ ∧ _))

structure PublishedPayment where
  outcome : PaymentOutcome
  correlation : String
deriving DecidableEq

structure Payments where
  clock : Nat
  store : Lease.Store String Nat
  queue : Multiset Delivery
  ladder : Multiset Delivery
  deadLetters : Multiset Delivery
  handlers : Multiset Handler
  accepted : Multiset Delivery
  published : List PublishedPayment
  services : Nat → PaymentsService

inductive PaymentsAction
  /-- The relay publishes an order, for the first time or again. -/
  | place (order : OrderPlaced) (correlation : String)
  | pass (duration : Nat)
  | deliver (delivery : Delivery) (service : Nat)
  /-- The store answers `first_time`. -/
  | claim (handler : Handler)
  /-- The broker takes what a handler publishes. -/
  | publish (handler : Handler)
  /-- The publish returns. -/
  | sent (handler : Handler)
  | confirm (handler : Handler)
  | acknowledge (handler : Handler)
  /-- Whatever the handler awaits raises. -/
  | raise (handler : Handler)
  | retry (delivery : Delivery)
  /-- An instance dies; its messages go back to the queue. -/
  | crash (service : Nat)
deriving DecidableEq

namespace Payments

def initial : Payments where
  clock := 0
  store := Lease.Store.empty
  queue := 0
  ladder := 0
  deadLetters := 0
  handlers := 0
  accepted := 0
  published := []
  services := fun _ => .started

def Enabled (state : Payments) : PaymentsAction → Prop
  | .place .. | .pass _ | .crash _ => True
  | .deliver delivery _ => delivery ∈ state.queue
  | .claim handler => handler ∈ state.handlers ∧ handler.await = .claim
  | .publish handler => handler ∈ state.handlers ∧ handler.await = .publish false
  | .sent handler => handler ∈ state.handlers ∧ handler.await = .publish true
  | .confirm handler => handler ∈ state.handlers ∧ handler.await = .confirmation
  | .acknowledge handler => handler ∈ state.handlers ∧ handler.await = .acknowledgement
  | .raise handler => handler ∈ state.handlers ∧ handler.await ≠ .acknowledgement
  | .retry delivery => delivery ∈ state.ladder

instance (state : Payments) (action : PaymentsAction) : Decidable (state.Enabled action) := by
  rcases action with ⟨⟩ <;> unfold Enabled <;> infer_instance

def goOn (state : Payments) (handler : Handler) (await : Await) : Payments :=
  { state with handlers := { handler with await } ::ₘ state.handlers.erase handler }

def serviceDid (state : Payments) (service : Nat)
    (did : PaymentsService → PaymentsService) : Payments :=
  { state with
    services := Function.update state.services service (did (state.services service)) }

def perform (terms : Lease.Terms Nat) (state : Payments) : PaymentsAction → Payments
  | .place order correlation =>
      { state with queue := ⟨order, correlation, 1⟩ ::ₘ state.queue }
  | .pass duration => { state with clock := state.clock + duration }
  | .deliver delivery service =>
      { state with
        queue := state.queue.erase delivery
        handlers := ⟨service, delivery, .claim⟩ ::ₘ state.handlers }
  | .claim handler =>
      let answer := Lease.firstTime terms state.store state.clock handler.orderId
      if answer.1 then goOn { state with store := answer.2 } handler (.publish false)
      else goOn (state.serviceDid handler.service .refuse) handler .acknowledgement
  | .publish handler =>
      let event := ⟨charge handler.delivery.order, handler.delivery.correlation⟩
      goOn { state with published := state.published ++ [event] } handler (.publish true)
  | .sent handler =>
      let did := fun service : PaymentsService => service.sent (charge handler.delivery.order)
      goOn (state.serviceDid handler.service did) handler .confirmation
  | .confirm handler =>
      let store := Lease.confirm state.store state.clock handler.orderId
      goOn { state with store } handler .acknowledgement
  | .acknowledge handler =>
      { state with
        handlers := state.handlers.erase handler
        accepted := handler.delivery ::ₘ state.accepted }
  | .raise handler =>
      let left := { state with handlers := state.handlers.erase handler }
      let again := { handler.delivery with attempt := handler.delivery.attempt + 1 }
      if handler.delivery.attempt < retryAttempts then
        { left with ladder := again ::ₘ state.ladder }
      else { left with deadLetters := handler.delivery ::ₘ state.deadLetters }
  | .retry delivery =>
      { state with
        ladder := state.ladder.erase delivery
        queue := delivery ::ₘ state.queue }
  | .crash service =>
      { state with
        handlers := state.handlers.filter (·.service ≠ service)
        queue := (state.handlers.filter (·.service = service)).map Handler.delivery +
          state.queue
        services := Function.update state.services service .started }

end Payments

def payments (terms : Lease.Terms Nat) : TransitionSystem Payments PaymentsAction where
  Initial state := state = Payments.initial
  Enabled := Payments.Enabled
  perform := Payments.perform terms

instance (terms : Lease.Terms Nat) (state : Payments) (action : PaymentsAction) :
    Decidable ((payments terms).Enabled state action) :=
  inferInstanceAs (Decidable (state.Enabled action))

end AmqpApps.Fulfilment
