import AmqpApps.Foundation.Filing
import AmqpApps.Fulfilment.Inventory
import AmqpApps.Fulfilment.OneOutcome
import AmqpApps.Fulfilment.Shipping

/-! # The five services

The gateway's relay, payments, inventory, shipping and notifications, and the queues
between them. A publish reaches every queue bound to its routing key at once; a queue
is first in, first out, and its service handles one message at a time. Publishes succeed
here, no process dies, and only what inventory raises on is tried again.
-/

namespace AmqpApps.Fulfilment

def PaymentOutcome.event : PaymentOutcome → Event
  | captured event => .captured event
  | declined event => .declined event

def StockOutcome.event : StockOutcome → Event
  | reserved event => .reserved event
  | unavailable event => .unavailable event

structure Post where
  event : Event
  correlation : String
deriving DecidableEq

structure Carried where
  post : Post
  attempt : Nat
deriving DecidableEq

structure Paying where
  order : OrderPlaced
  correlation : String
  await : Await
deriving DecidableEq

structure Services where
  clock : Nat
  /-- The store of payments. -/
  charged : Lease.Store String Nat
  /-- What the gateway has committed to its outbox. -/
  placed : List OrderPlaced
  queues : Queue → List Carried
  ladder : Multiset Carried
  deadLetters : Multiset Carried
  paying : Option Paying
  reserving : Option Reservation
  dispatching : Option Dispatch
  payments : PaymentsService
  inventory : InventoryService
  shipping : ShippingService
  timeline : Filing String String
  /-- Everything published, and everything notifications has recorded; nothing reads them. -/
  published : List Post
  recorded : List Post

inductive ServicesStep
  /-- The gateway takes an order. -/
  | place (order : OrderPlaced)
  /-- The relay publishes an order, for the first time or again. -/
  | relay (order : OrderPlaced)
  | withStock (sku : String) (quantity : Int)
  | withFlakyWarehouse (count : Int)
  | pass (duration : Nat)
  /-- A service takes the next message of its queue, and runs to its first await. -/
  | take (queue : Queue)
  /-- The store answers payments. -/
  | claim
  | confirm
  /-- The broker takes what a service publishes. -/
  | publish (service : Queue)
  /-- The publish returns. -/
  | sent (service : Queue)
  /-- A message comes off the retry ladder. -/
  | retry (message : Carried)
deriving DecidableEq

namespace Services

def initial : Services where
  clock := 0
  charged := .empty
  placed := []
  queues := fun _ => []
  ladder := 0
  deadLetters := 0
  paying := none
  reserving := none
  dispatching := none
  payments := .started
  inventory := .new
  shipping := .new
  timeline := ∅
  published := []
  recorded := []

def outgoing (state : Services) : Queue → Option Post
  | .payments =>
      match state.paying with
      | some ⟨order, correlation, .publish false⟩ => some ⟨(charge order).event, correlation⟩
      | _ => none
  | .inventory =>
      match state.reserving with
      | some ⟨outcome, correlation, false⟩ => some ⟨outcome.event, correlation⟩
      | _ => none
  | .shipping =>
      match state.dispatching with
      | some ⟨event, correlation, false⟩ => some ⟨.shipped event, correlation⟩
      | _ => none
  | .notifications => none

def busy (state : Services) : Queue → Bool
  | .payments => state.paying.isSome
  | .inventory => state.reserving.isSome
  | .shipping => state.dispatching.isSome
  | .notifications => false

def awaits (state : Services) : Option Await := state.paying.map Paying.await

def isOut (state : Services) : Queue → Bool
  | .payments => state.awaits == some (.publish true)
  | .inventory => state.reserving.any Reservation.out
  | .shipping => state.dispatching.any Dispatch.out
  | .notifications => false

def Enabled (state : Services) : ServicesStep → Prop
  | .place order => order.orderId ∉ state.placed.map OrderPlaced.orderId
  | .relay order => order ∈ state.placed
  | .withStock .. | .withFlakyWarehouse _ | .pass _ => True
  | .take queue => state.busy queue = false ∧ state.queues queue ≠ []
  | .claim => state.awaits = some .claim
  | .confirm => state.awaits = some .confirmation
  | .publish service => (state.outgoing service).isSome = true
  | .sent service => state.isOut service = true
  | .retry message => message ∈ state.ladder

instance (state : Services) (step : ServicesStep) : Decidable (state.Enabled step) := by
  rcases step with ⟨⟩ <;> unfold Enabled <;> infer_instance

def post (state : Services) (post : Post) : Services :=
  { state with
    queues := route Contracts.topology post.event.routingKey ⟨post, 1⟩ state.queues
    published := state.published ++ [post] }

def retryLater (state : Services) (message : Carried) : Services :=
  if message.attempt < retryAttempts then
    { state with ladder := { message with attempt := message.attempt + 1 } ::ₘ state.ladder }
  else { state with deadLetters := message ::ₘ state.deadLetters }

/-- A handler starts. What it cannot read it raises on. -/
def handle (state : Services) (message : Carried) : Queue → Services
  | .payments =>
      match message.post.event with
      | .placed order =>
          { state with paying := some ⟨order, message.post.correlation, .claim⟩ }
      | _ => state.retryLater message
  | .inventory =>
      match message.post.event with
      | .captured payment =>
          let ran := state.inventory.reserve payment
          match ran.2 with
          | .error _ => retryLater { state with inventory := ran.1 } message
          | .ok outcome =>
              { state with
                inventory := ran.1
                reserving := some ⟨outcome, message.post.correlation, false⟩ }
      | _ => state.retryLater message
  | .shipping =>
      match message.post.event with
      | .reserved reservation =>
          let event := ShippingService.dispatch reservation
          { state with dispatching := some ⟨event, message.post.correlation, false⟩ }
      | _ => state.retryLater message
  -- `_record` awaits nothing, and reads nothing but the envelope.
  | .notifications =>
      { state with
        timeline := state.timeline.file message.post.correlation message.post.event.type
        recorded := state.recorded ++ [message.post] }

def markOut (state : Services) : Queue → Services
  | .payments =>
      { state with paying := state.paying.map ({ · with await := .publish true }) }
  | .inventory => { state with reserving := state.reserving.map ({ · with out := true }) }
  | .shipping => { state with dispatching := state.dispatching.map ({ · with out := true }) }
  | .notifications => state

def perform (terms : Lease.Terms Nat) (state : Services) : ServicesStep → Services
  | .place order => { state with placed := state.placed ++ [order] }
  | .relay order => state.post ⟨.placed order, order.orderId⟩
  | .withStock sku quantity =>
      { state with inventory := state.inventory.withStock sku quantity }
  | .withFlakyWarehouse count =>
      { state with inventory := state.inventory.withFlakyWarehouse count }
  | .pass duration => { state with clock := state.clock + duration }
  | .take queue =>
      match state.queues queue with
      | [] => state
      | message :: rest =>
          handle { state with queues := Function.update state.queues queue rest } message queue
  | .claim =>
      match state.paying with
      | none => state
      | some paying =>
          let answer := Lease.firstTime terms state.charged state.clock paying.order.orderId
          if answer.1 then
            { state with
              charged := answer.2
              paying := some { paying with await := .publish false } }
          else { state with payments := state.payments.refuse, paying := none }
  | .confirm =>
      match state.paying with
      | none => state
      | some paying =>
          { state with
            charged := Lease.confirm state.charged state.clock paying.order.orderId
            paying := none }
  | .publish service =>
      match state.outgoing service with
      | none => state
      | some post => (state.markOut service).post post
  | .sent .payments =>
      match state.paying with
      | none => state
      | some paying =>
          { state with
            payments := state.payments.sent (charge paying.order)
            paying := some { paying with await := .confirmation } }
  | .sent .inventory =>
      match state.reserving with
      | none => state
      | some call =>
          { state with inventory := state.inventory.sent call.outcome, reserving := none }
  | .sent .shipping => { state with shipping := state.shipping.sent, dispatching := none }
  | .sent .notifications => state
  | .retry message =>
      { state with
        ladder := state.ladder.erase message
        queues := Function.update state.queues .inventory
          (state.queues .inventory ++ [message]) }

/-- What a customer who asks where the order is would be shown. -/
def timelineOf (state : Services) (orderId : String) : List String :=
  state.timeline.of orderId

end Services

def services (terms : Lease.Terms Nat) : TransitionSystem Services ServicesStep where
  Initial state := state = Services.initial
  Enabled := Services.Enabled
  perform := Services.perform terms

instance (terms : Lease.Terms Nat) (state : Services) (step : ServicesStep) :
    Decidable ((services terms).Enabled state step) :=
  inferInstanceAs (Decidable (state.Enabled step))

end AmqpApps.Fulfilment
