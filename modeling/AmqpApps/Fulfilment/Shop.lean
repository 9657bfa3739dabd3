import AmqpApps.Foundation.SequentialObject
import AmqpApps.Fulfilment.Services

/-! # A shop with one counter

What the five services are for, with nothing between them: customers are served one after
the other, each to the end, from the shelves as they then are.
-/

namespace AmqpApps.Fulfilment

inductive Ending
  | declined (event : PaymentDeclined)
  | unavailable (event : StockUnavailable)
  | shipped (reservation : StockReserved)
deriving DecidableEq

namespace Ending

def orderId : Ending → String
  | declined event => event.orderId
  | unavailable event => event.orderId
  | shipped reservation => reservation.orderId

end Ending

inductive ShopOperation
  /-- A shelf is filled, whatever it held. -/
  | stock (sku : String) (quantity : Int)
  | serve (order : OrderPlaced)
deriving DecidableEq

namespace ShopOperation

def stocking : ShopOperation → Option (String × Int)
  | stock sku quantity => some (sku, quantity)
  | serve _ => none

def serving : ShopOperation → Option String
  | stock .. => none
  | serve order => some order.orderId

end ShopOperation

/-- An order above the limit is declined; one for more than there is left is refused, and
any other is taken from the shelf and shipped. -/
def serve (shelves : Tally String Int) (order : OrderPlaced) : Tally String Int × Ending :=
  if automaticLimit < order.total then
    (shelves, .declined ⟨order.orderId, order.customer, "over the automatic limit"⟩)
  else
    let left := shelves.of order.sku
    if left < order.quantity then
      (shelves, .unavailable
        ⟨order.orderId, order.customer, order.sku, s!"only {left} left"⟩)
    else
      (shelves.insert order.sku (left - order.quantity),
        .shipped ⟨order.orderId, order.customer, order.sku, order.quantity⟩)

def shop : SequentialObject (Tally String Int) ShopOperation (Option Ending) where
  initial := ∅
  perform shelves
    | .stock sku quantity => (shelves.insert sku quantity, none)
    | .serve order => ((serve shelves order).1, some (serve shelves order).2)

def story (order : OrderPlaced) : Ending → List Event
  | .declined event => [.placed order, .declined event]
  | .unavailable event => [.placed order, (charge order).event, .unavailable event]
  | .shipped reservation =>
      [.placed order, (charge order).event, .reserved reservation,
        .shipped (ShippingService.dispatch reservation)]

theorem serve_orderId (shelves : Tally String Int) (order : OrderPlaced) :
    (serve shelves order).2.orderId = order.orderId := by
  rw [serve]
  split
  · rfl
  · simp only
    split <;> rfl

theorem serve_declined {shelves : Tally String Int} {order : OrderPlaced}
    {refusal : PaymentDeclined} (declined : charge order = .declined refusal) :
    serve shelves order = (shelves, .declined refusal) := by
  rw [charge] at declined
  split at declined
  · rename_i above
    cases declined
    exact if_pos above
  · cases declined

theorem charge_of_serve_declined {shelves : Tally String Int} {order : OrderPlaced}
    {refusal : PaymentDeclined} (declined : (serve shelves order).2 = .declined refusal) :
    charge order = .declined refusal := by
  rw [serve] at declined
  split at declined
  · rename_i above
    cases declined
    exact if_pos above
  · simp only at declined
    split at declined <;> cases declined

/-- What inventory has decided is the end of the order, but for the shipment. -/
def StockOutcome.ending : StockOutcome → Ending
  | reserved event => .shipped event
  | unavailable event => .unavailable event

theorem serve_of_reserve {service : InventoryService} {order : OrderPlaced}
    {payment : PaymentCaptured} {outcome : StockOutcome}
    (paid : charge order = .captured payment)
    (ran : (service.reserve payment).2 = .ok outcome) :
    serve service.stock order = ((service.reserve payment).1.stock, outcome.ending) := by
  have within : ¬automaticLimit < order.total := by
    intro above
    rw [charge, if_pos above] at paid
    cases paid
  rw [charge, if_neg within] at paid
  cases paid
  rw [serve, if_neg within]
  by_cases fails : service.warehouseCalls + 1 ≤ service.failuresToSimulate
  · simp [InventoryService.reserve, fails] at ran
  · by_cases short : service.stock.of order.sku < order.quantity
    · simp only [InventoryService.reserve, fails, short, if_true, if_false] at ran ⊢
      cases ran
      rfl
    · simp only [InventoryService.reserve, fails, short, if_false] at ran ⊢
      cases ran
      rfl

/-- Whatever an order is answered, it was served from the shelves of its turn. -/
theorem mem_answers_serve {operations : List ShopOperation} {order : OrderPlaced}
    {ending : Ending} (answered : (.serve order, some ending) ∈ shop.answers operations) :
    ∃ shelves, (serve shelves order).2 = ending := by
  induction operations using List.reverseRecOn with
  | nil => cases answered
  | append_singleton operations operation induction =>
      rw [shop.answers_concat] at answered
      rcases List.mem_append.mp answered with before | now
      · exact induction before
      · have same := List.mem_singleton.mp now
        cases operation with
        | stock sku quantity => cases same
        | serve other =>
            cases same
            exact ⟨_, rfl⟩

theorem answered_of_served {operations : List ShopOperation} {orderId : String}
    (served : orderId ∈ operations.filterMap ShopOperation.serving) :
    ∃ order ending, order.orderId = orderId ∧
      (.serve order, some ending) ∈ shop.answers operations := by
  induction operations using List.reverseRecOn with
  | nil => cases served
  | append_singleton operations operation induction =>
      rw [shop.answers_concat]
      rw [List.filterMap_append] at served
      rcases List.mem_append.mp served with before | now
      · rcases induction before with ⟨order, ending, same, answered⟩
        exact ⟨order, ending, same, List.mem_append_left _ answered⟩
      · cases operation with
        | stock sku quantity => cases now
        | serve order =>
            have same : orderId = order.orderId := by simpa [ShopOperation.serving] using now
            exact ⟨order, _, same.symm, List.mem_append_right _ List.mem_cons_self⟩

theorem served_of_answered {operations : List ShopOperation} {order : OrderPlaced}
    {response : Option Ending} (answered : (.serve order, response) ∈ shop.answers operations) :
    order.orderId ∈ operations.filterMap ShopOperation.serving := by
  have listed : .serve order ∈ operations := by
    rw [← shop.answers_operations operations]
    exact List.mem_map.mpr ⟨_, answered, rfl⟩
  exact List.mem_filterMap.mpr ⟨_, listed, rfl⟩

theorem answer_unique {operations : List ShopOperation}
    (once : (operations.filterMap ShopOperation.serving).Nodup) {order : OrderPlaced}
    {one other : Ending} (first : (.serve order, some one) ∈ shop.answers operations)
    (second : (.serve order, some other) ∈ shop.answers operations) : one = other := by
  induction operations using List.reverseRecOn with
  | nil => cases first
  | append_singleton operations operation induction =>
      rw [shop.answers_concat] at first second
      rw [List.filterMap_append, List.nodup_append] at once
      rcases once with ⟨before, -, apart⟩
      have clash : ∀ ending, (.serve order, some ending) ∈ shop.answers operations →
          operation ≠ .serve order := by
        rintro ending earlier rfl
        exact apart _ (served_of_answered earlier) _ List.mem_cons_self rfl
      rcases List.mem_append.mp first with earlier | last <;>
        rcases List.mem_append.mp second with earlierToo | lastToo
      · exact induction before earlier earlierToo
      · exact absurd (Prod.ext_iff.mp (List.mem_singleton.mp lastToo)).1.symm (clash _ earlier)
      · exact absurd (Prod.ext_iff.mp (List.mem_singleton.mp last)).1.symm (clash _ earlierToo)
      · have same := (List.mem_singleton.mp last).trans (List.mem_singleton.mp lastToo).symm
        cases same
        rfl

end AmqpApps.Fulfilment
