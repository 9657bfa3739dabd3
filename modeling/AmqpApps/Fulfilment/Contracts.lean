import AmqpApps.Foundation.TopicExchange
import AmqpApps.Wire

/-! # What the fulfilment services agree on

The events of `contracts.py`. As in the ledger, a handler's `from_wire` is not
repeated in the models: it gives back what `to_wire` was given.
-/

namespace AmqpApps.Fulfilment

/-! ## Routing -/

namespace Contracts

def exchange : String := "fulfilment"

def orderPlaced : String := "fulfilment.order.placed"

def paymentCaptured : String := "fulfilment.payment.captured"

def paymentDeclined : String := "fulfilment.payment.declined"

def stockReserved : String := "fulfilment.stock.reserved"

def stockUnavailable : String := "fulfilment.stock.unavailable"

def orderShipped : String := "fulfilment.order.shipped"

end Contracts

inductive Queue
  | payments
  | inventory
  | shipping
  | notifications
deriving DecidableEq

def Contracts.topology : List (Binding Queue) :=
  [⟨.payments, orderPlaced⟩, ⟨.inventory, paymentCaptured⟩, ⟨.shipping, stockReserved⟩,
    ⟨.notifications, "fulfilment.#"⟩]

/-! ## Events -/

structure OrderPlaced where
  orderId : String
  customer : String
  sku : String
  quantity : Int
  total : ℚ
deriving DecidableEq

structure PaymentCaptured where
  orderId : String
  customer : String
  sku : String
  quantity : Int
  amount : ℚ
deriving DecidableEq

structure PaymentDeclined where
  orderId : String
  customer : String
  reason : String
deriving DecidableEq

structure StockReserved where
  orderId : String
  customer : String
  sku : String
  quantity : Int
deriving DecidableEq

structure StockUnavailable where
  orderId : String
  customer : String
  sku : String
  reason : String
deriving DecidableEq

structure OrderShipped where
  orderId : String
  customer : String
  tracking : String
deriving DecidableEq

inductive Event
  | placed (event : OrderPlaced)
  | captured (event : PaymentCaptured)
  | declined (event : PaymentDeclined)
  | reserved (event : StockReserved)
  | unavailable (event : StockUnavailable)
  | shipped (event : OrderShipped)
deriving DecidableEq

namespace Event

def type : Event → String
  | placed _ => "OrderPlaced"
  | captured _ => "PaymentCaptured"
  | declined _ => "PaymentDeclined"
  | reserved _ => "StockReserved"
  | unavailable _ => "StockUnavailable"
  | shipped _ => "OrderShipped"

def routingKey : Event → String
  | placed _ => Contracts.orderPlaced
  | captured _ => Contracts.paymentCaptured
  | declined _ => Contracts.paymentDeclined
  | reserved _ => Contracts.stockReserved
  | unavailable _ => Contracts.stockUnavailable
  | shipped _ => Contracts.orderShipped

def orderId : Event → String
  | placed event => event.orderId
  | captured event => event.orderId
  | declined event => event.orderId
  | reserved event => event.orderId
  | unavailable event => event.orderId
  | shipped event => event.orderId

theorem routed_topology (event : Event) (queue : Queue) :
    routed Contracts.topology event.routingKey queue = true ↔
      match queue with
      | .payments => event.type = "OrderPlaced"
      | .inventory => event.type = "PaymentCaptured"
      | .shipping => event.type = "StockReserved"
      | .notifications => True := by
  cases event <;> cases queue <;> simp only [routingKey, type] <;> decide

end Event

/-! ## The wire form -/

def OrderPlaced.asdict (event : OrderPlaced) : Fields :=
  [("order_id", .str event.orderId), ("customer", .str event.customer),
    ("sku", .str event.sku), ("quantity", .int event.quantity), ("total", .float event.total)]

def PaymentCaptured.asdict (event : PaymentCaptured) : Fields :=
  [("order_id", .str event.orderId), ("customer", .str event.customer),
    ("sku", .str event.sku), ("quantity", .int event.quantity),
    ("amount", .float event.amount)]

def OrderPlaced.fieldNames : List String := ["order_id", "customer", "sku", "quantity", "total"]

def PaymentCaptured.fieldNames : List String :=
  ["order_id", "customer", "sku", "quantity", "amount"]

def PaymentDeclined.fieldNames : List String := ["order_id", "customer", "reason"]

def StockReserved.fieldNames : List String := ["order_id", "customer", "sku", "quantity"]

def StockUnavailable.fieldNames : List String := ["order_id", "customer", "sku", "reason"]

def OrderShipped.fieldNames : List String := ["order_id", "customer", "tracking"]

theorem OrderPlaced.fromWire_toWire (event : OrderPlaced) :
    fromWire camel fieldNames (toWire camel event.asdict) = .ok event.asdict :=
  AmqpApps.fromWire_toWire camel event.asdict (show (fieldNames.map camel).Nodup by decide)

theorem PaymentCaptured.fromWire_toWire (event : PaymentCaptured) :
    fromWire camel fieldNames (toWire camel event.asdict) = .ok event.asdict :=
  AmqpApps.fromWire_toWire camel event.asdict (show (fieldNames.map camel).Nodup by decide)

end AmqpApps.Fulfilment
