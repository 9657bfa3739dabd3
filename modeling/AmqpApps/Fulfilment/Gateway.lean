import AmqpApps.Fulfilment.Contracts
import AmqpApps.Outbox

/-! # The gateway

`place_order` saves an order and announces it, in one transaction.
-/

namespace AmqpApps.Fulfilment

structure OrderRow where
  id : String
  customer : String
  sku : String
  quantity : Int
  total : ℚ
  status : String
deriving DecidableEq

/-- The arguments of `place_order`, and the id it draws. -/
structure PlaceOrder where
  orderId : String
  customer : String
  sku : String
  quantity : Int
  total : ℚ
deriving DecidableEq

namespace PlaceOrder

def event (call : PlaceOrder) : OrderPlaced :=
  ⟨call.orderId, call.customer, call.sku, call.quantity, call.total⟩

def row (call : PlaceOrder) : OrderRow :=
  ⟨call.orderId, call.customer, call.sku, call.quantity, call.total, "PLACED"⟩

def record (origin : String) (call : PlaceOrder) : OutboxRecord OrderPlaced where
  exchange := Contracts.exchange
  routingKey := Contracts.orderPlaced
  event := call.event
  envelope := ⟨"OrderPlaced", some call.orderId, call.orderId, some origin⟩

end PlaceOrder

def placeOrder (origin : String) (call : PlaceOrder) :
    Block (Operation (Written OrderRow (OutboxRecord OrderPlaced))) :=
  .seq (.call .connect)
    (.guarded
      (.seq (.call (.execute (.row call.row)))
        -- `record` encodes the payload before `add` is awaited.
        (.seq (.call .evaluate)
          (.seq (.call (add (call.record origin)))
            (.call .commit))))
      (.seq (.call .rollback) .raise)
      (.call .close))

theorem placeOrder_meets (origin : String) (call : PlaceOrder) :
    (placeOrder origin call).Meets effects
      (AllOrNothing [.row call.row, .record (call.record origin)])
      (Settled [.row call.row, .record (call.record origin)] .returned)
      (Settled [.row call.row, .record (call.record origin)] .raised) .unopened := by
  have plain : ∀ op ∈ [.execute (.row call.row), .evaluate, add (call.record origin)],
      op.Plain := by
    simp [add, Operation.Plain]
  exact transaction_meets plain

def gateway (origin : String) :
    TransitionSystem (Calls PlaceOrder (Written OrderRow (OutboxRecord OrderPlaced)))
      (CallAction PlaceOrder (Written OrderRow (OutboxRecord OrderPlaced))) :=
  calls (placeOrder origin) (Written.key OrderRow.id)

instance (origin : String)
    (state : Calls PlaceOrder (Written OrderRow (OutboxRecord OrderPlaced)))
    (action : CallAction PlaceOrder (Written OrderRow (OutboxRecord OrderPlaced))) :
    Decidable ((gateway origin).Enabled state action) :=
  inferInstanceAs (Decidable (state.Enabled _ action))

def OrderRow.placed (row : OrderRow) : OrderPlaced :=
  ⟨row.id, row.customer, row.sku, row.quantity, row.total⟩

/-- The record is read back as the fields of the row, and goes by its id. -/
def OrderRow.AnnouncedBy (row : OrderRow) (record : OutboxRecord OrderPlaced) : Prop :=
  fromWire camel OrderPlaced.fieldNames (record.payload OrderPlaced.asdict) =
      .ok row.placed.asdict ∧
    record.envelope.id = some row.id ∧ record.envelope.correlationId = row.id

theorem PlaceOrder.announced (origin : String) (call : PlaceOrder) :
    call.row.AnnouncedBy (call.record origin) :=
  ⟨call.event.fromWire_toWire, rfl, rfl⟩

end AmqpApps.Fulfilment
