import AmqpApps.Fulfilment.Settling
import AmqpApps.Fulfilment.WholeStories

/-! # The counters of the services

Each service counts what it has done when the publish has returned. What has been done and
not been counted is in hand, and what has been asked for and not been done is on a queue.
-/

namespace AmqpApps.Fulfilment

def ServicesStep.retries : ServicesStep → Bool
  | retry _ => true
  | _ => false

def Event.pays : Event → Bool
  | captured _ | declined _ => true
  | _ => false

/-! ## What is in hand -/

namespace Paying

def uncounted (paying : Paying) : Nat :=
  match paying.await with
  | .claim | .publish _ => 1
  | .confirmation | .acknowledgement => 0

def out (paying : Paying) : Nat :=
  match paying.await with
  | .publish out => out.toNat
  | .claim | .confirmation | .acknowledgement => 0

/-- The outcome that is out is a capture. -/
def capturing (paying : Paying) : Nat :=
  if (charge paying.order).event.type = "PaymentCaptured" then paying.out else 0

end Paying

def Reservation.holding (call : Reservation) : Nat :=
  if call.outcome.event.type = "StockReserved" then call.out.toNat else 0

private theorem InventoryService.reserve_counters (service : InventoryService)
    (payment : PaymentCaptured) :
    (service.reserve payment).1.reserved = service.reserved ∧
      (service.reserve payment).1.rejected = service.rejected := by
  refine ⟨service.reserve_reserved payment, ?_⟩
  rw [reserve]
  simp only
  split
  · rfl
  · split <;> rfl

namespace Services

variable {terms : Lease.Terms Nat} {state next : Services} {message : Carried}
variable {actions : List ServicesStep}

/-- What the counters say is what has been asked for, but for what is on its way. -/
structure Counted (actions : List ServicesStep) (state : Services) : Prop where
  announced : actions.countP ServicesStep.relays = (state.queues .payments).length +
    state.paying.elim 0 Paying.uncounted + state.payments.captured + state.payments.declined +
      state.payments.duplicatesRefused
  captured : state.payments.captured + state.paying.elim 0 Paying.capturing =
    (state.queues .inventory).length + state.ladder.card + state.deadLetters.card +
      state.reserving.isSome.toNat + state.inventory.reserved + state.inventory.rejected
  reserved : state.inventory.reserved + state.reserving.elim 0 Reservation.holding =
    (state.queues .shipping).length + state.dispatching.isSome.toNat + state.shipping.shipped
  calls : state.inventory.warehouseCalls = state.inventory.reserved + state.inventory.rejected +
    state.reserving.isSome.toNat + state.deadLetters.card + state.ladder.card +
      actions.countP ServicesStep.retries
  outcomes : state.published.countP (·.event.pays) =
    state.payments.captured + state.payments.declined + state.paying.elim 0 Paying.out
  published : state.published.length = actions.countP ServicesStep.relays +
    state.payments.captured + state.payments.declined + state.paying.elim 0 Paying.out +
      state.inventory.reserved + state.inventory.rejected +
        (state.reserving.any Reservation.out).toNat + state.shipping.shipped +
          (state.dispatching.any Dispatch.out).toNat

namespace Counted

private theorem initial : Counted [] .initial := by
  constructor <;> rfl

private theorem relay (counted : Counted actions state) (order : OrderPlaced) :
    Counted (actions ++ [.relay order]) (state.post ⟨.placed order, order.orderId⟩) := by
  rcases counted with ⟨announced, captured, reserved, calls, outcomes, published⟩
  have routes := Event.routed_topology (.placed order)
  constructor
  · simp only [countP_concat, Services.post, route, routes, Event.type, if_true,
      List.length_append, List.length_singleton, ServicesStep.relays, Bool.toNat_true]
    omega
  · simpa [Services.post, route, routes, Event.type] using captured
  · simpa [Services.post, route, routes, Event.type] using reserved
  · simpa [Services.post, countP_concat, ServicesStep.retries] using calls
  · simpa [Services.post, Event.pays] using outcomes
  · simp only [countP_concat, Services.post, List.length_append, List.length_singleton,
      ServicesStep.relays, Bool.toNat_true]
    omega

private theorem of_same {step : ServicesStep} (counted : Counted actions state)
    (other : step.relays = false ∧ step.retries = false)
    (same : next.queues = state.queues ∧ next.ladder = state.ladder ∧
      next.deadLetters = state.deadLetters ∧ next.paying = state.paying ∧
      next.reserving = state.reserving ∧ next.dispatching = state.dispatching ∧
      next.payments = state.payments ∧ next.shipping = state.shipping ∧
      next.published = state.published)
    (stock : next.inventory.reserved = state.inventory.reserved ∧
      next.inventory.rejected = state.inventory.rejected ∧
      next.inventory.warehouseCalls = state.inventory.warehouseCalls) :
    Counted (actions ++ [step]) next := by
  rcases same with ⟨queues, ladder, deadLetters, paying, reserving, dispatching, payments,
    shipping, published⟩
  rcases stock with ⟨reserved, rejected, calls⟩
  rcases other with ⟨silent, first⟩
  rcases counted with ⟨c₁, c₂, c₃, c₄, c₅, c₆⟩
  constructor <;>
    simpa only [countP_concat, queues, ladder, deadLetters, paying, reserving, dispatching,
      payments, shipping, published, reserved, rejected, calls, silent, first,
      Bool.toNat_false, Nat.add_zero]

private theorem length_post (state : Services) {post : Post} {queue : Queue} {type : String}
    (receives : routed Contracts.topology post.event.routingKey queue = true ↔
      post.event.type = type) :
    ((state.post post).queues queue).length =
      (state.queues queue).length + (post.event.type == type).toNat := by
  simp only [Services.post, route]
  by_cases bound : routed Contracts.topology post.event.routingKey queue = true
  · simp [bound, receives.mp bound]
  · have other : (post.event.type == type) = false := by simpa [receives] using bound
    simp [bound, other]

private theorem lengths_publish (state : Services) (service : Queue) (post : Post) :
    (((state.markOut service).post post).queues .payments).length =
        (state.queues .payments).length + (post.event.type == "OrderPlaced").toNat ∧
      (((state.markOut service).post post).queues .inventory).length =
        (state.queues .inventory).length + (post.event.type == "PaymentCaptured").toNat ∧
      (((state.markOut service).post post).queues .shipping).length =
        (state.queues .shipping).length + (post.event.type == "StockReserved").toNat := by
  have same : (state.markOut service).queues = state.queues := by cases service <;> rfl
  have lengths := fun {queue type} => @length_post (state.markOut service) post queue type
  rw [same] at lengths
  exact ⟨lengths (Event.routed_topology post.event .payments),
    lengths (Event.routed_topology post.event .inventory),
    lengths (Event.routed_topology post.event .shipping)⟩

private theorem charge (counted : Counted actions state) {post : Post}
    (outgoing : state.outgoing .payments = some post) :
    Counted (actions ++ [.publish .payments]) ((state.markOut .payments).post post) := by
  rcases outgoing_payments outgoing with ⟨order, held, event⟩
  have pays : post.event.pays = true := by
    rw [event]
    cases Fulfilment.charge order <;> rfl
  have unplaced : (post.event.type == "OrderPlaced") = false ∧
      (post.event.type == "StockReserved") = false := by
    rw [event]
    rcases (Fulfilment.charge order).type_event with kind | kind <;> simp [kind]
  rcases lengths_publish state .payments post with ⟨queued, paid, stocked⟩
  have now : ((state.markOut .payments).post post).paying =
      some ⟨order, post.correlation, .publish true⟩ := by
    simp [Services.post, markOut, held]
  rw [unplaced.1] at queued
  rw [unplaced.2] at stocked
  rcases counted with ⟨announced, captured, reserved, calls, outcomes, published⟩
  rw [held] at announced captured outcomes published
  constructor
  · rw [queued, now, countP_concat]
    exact announced
  · rw [paid, now]
    simp only [Option.elim_some, Paying.capturing, ← event, Paying.out, Bool.toNat_false,
      ite_self, Bool.toNat_true] at captured ⊢
    by_cases kind : post.event.type = "PaymentCaptured"
    · simp only [kind, if_true, beq_self_eq_true, Bool.toNat_true, Services.post, markOut]
      omega
    · simp only [kind, if_false, beq_eq_false_iff_ne.mpr kind, Bool.toNat_false, Services.post,
        markOut]
      omega
  · rw [stocked]
    exact reserved
  · rw [countP_concat]
    exact calls
  · rw [now]
    simp only [Services.post, countP_concat, pays]
    simp only [Option.elim_some, Paying.out, Bool.toNat_false, Bool.toNat_true, markOut]
      at outcomes ⊢
    omega
  · rw [now, countP_concat]
    simp only [Services.post, List.length_append, List.length_singleton]
    simp only [Option.elim_some, Paying.out, Bool.toNat_false, Bool.toNat_true, markOut]
      at published ⊢
    simp only [ServicesStep.relays, Bool.toNat_false]
    omega

private theorem decide (counted : Counted actions state) {post : Post}
    (outgoing : state.outgoing .inventory = some post) :
    Counted (actions ++ [.publish .inventory]) ((state.markOut .inventory).post post) := by
  rcases outgoing_inventory outgoing with ⟨outcome, held, event⟩
  have pays : post.event.pays = false := by
    rw [event]
    cases outcome <;> rfl
  have uncharged : (post.event.type == "OrderPlaced") = false ∧
      (post.event.type == "PaymentCaptured") = false := by
    rw [event]
    rcases outcome.type_event with kind | kind <;> simp [kind]
  rcases lengths_publish state .inventory post with ⟨queued, paid, stocked⟩
  have now : ((state.markOut .inventory).post post).reserving =
      some ⟨outcome, post.correlation, true⟩ := by
    simp [Services.post, markOut, held]
  rw [uncharged.1] at queued
  rw [uncharged.2] at paid
  rcases counted with ⟨announced, captured, reserved, calls, outcomes, published⟩
  rw [held] at captured reserved calls published
  constructor
  · rw [queued, countP_concat]
    exact announced
  · rw [paid, now]
    exact captured
  · rw [stocked, now]
    simp only [Option.elim_some, Reservation.holding, ← event, Bool.toNat_false, ite_self,
      Bool.toNat_true] at reserved ⊢
    by_cases kind : post.event.type = "StockReserved"
    · simp only [kind, if_true, beq_self_eq_true, Bool.toNat_true, Services.post, markOut]
      omega
    · simp only [kind, if_false, beq_eq_false_iff_ne.mpr kind, Bool.toNat_false, Services.post,
        markOut]
      omega
  · rw [now, countP_concat]
    exact calls
  · simp only [Services.post, countP_concat, pays, Bool.toNat_false]
    exact outcomes
  · rw [now, countP_concat]
    simp only [Services.post, List.length_append, List.length_singleton, Option.any_some,
      Bool.toNat_false, Bool.toNat_true, markOut, ServicesStep.relays] at published ⊢
    omega

private theorem ship (counted : Counted actions state) {post : Post}
    (outgoing : state.outgoing .shipping = some post) :
    Counted (actions ++ [.publish .shipping]) ((state.markOut .shipping).post post) := by
  rcases outgoing_shipping outgoing with ⟨shipment, held, event⟩
  have kind : post.event.type = "OrderShipped" := by
    rw [event]
    rfl
  have pays : post.event.pays = false := by
    rw [event]
    rfl
  rcases lengths_publish state .shipping post with ⟨queued, paid, stocked⟩
  have now : ((state.markOut .shipping).post post).dispatching =
      some ⟨shipment, post.correlation, true⟩ := by
    simp [Services.post, markOut, held]
  rw [kind] at queued paid stocked
  rcases counted with ⟨announced, captured, reserved, calls, outcomes, published⟩
  rw [held] at reserved published
  constructor
  · rw [queued, countP_concat]
    exact announced
  · rw [paid]
    exact captured
  · rw [stocked, now]
    exact reserved
  · rw [countP_concat]
    exact calls
  · simp only [Services.post, countP_concat, pays, Bool.toNat_false]
    exact outcomes
  · rw [now, countP_concat]
    simp only [Services.post, List.length_append, List.length_singleton, Option.any_some,
      Bool.toNat_false, Bool.toNat_true, markOut, ServicesStep.relays] at published ⊢
    omega

private theorem publish (counted : Counted actions state) {service : Queue} {post : Post}
    (outgoing : state.outgoing service = some post) :
    Counted (actions ++ [.publish service]) ((state.markOut service).post post) := by
  cases service with
  | payments => exact counted.charge outgoing
  | inventory => exact counted.decide outgoing
  | shipping => exact counted.ship outgoing
  | notifications => cases outgoing

private theorem raise (counted : Counted actions state) {rest : List Carried}
    {payment : PaymentCaptured}
    (waiting : state.queues .inventory = message :: rest)
    (uncounted : (state.inventory.reserve payment).1.reserved = state.inventory.reserved ∧
      (state.inventory.reserve payment).1.rejected = state.inventory.rejected) :
    Counted (actions ++ [.take .inventory]) (retryLater { state with
      queues := Function.update state.queues .inventory rest
      inventory := (state.inventory.reserve payment).1 } message) := by
  have called := (state.inventory.reserve_counts payment).1
  rcases counted with ⟨announced, captured, reserved, calls, outcomes, published⟩
  rw [waiting, List.length_cons] at captured
  have elsewhere : ∀ queue, queue ≠ .inventory →
      Function.update state.queues .inventory rest queue = state.queues queue :=
    fun queue other => Function.update_of_ne other rest state.queues
  unfold retryLater
  split
  all_goals
    constructor <;>
      simp only [countP_concat, ServicesStep.relays, ServicesStep.retries, Bool.toNat_false,
        Multiset.card_cons, Function.update_self, uncounted, called,
        elsewhere .payments (by decide), elsewhere .shipping (by decide), Nat.add_zero,
        Int.natCast_add, Int.natCast_one] <;> omega

private theorem answer (counted : Counted actions state) {rest : List Carried}
    {payment : PaymentCaptured} {outcome : StockOutcome} {correlation : String}
    (waiting : state.queues .inventory = message :: rest) (idle : state.reserving = none)
    (uncounted : (state.inventory.reserve payment).1.reserved = state.inventory.reserved ∧
      (state.inventory.reserve payment).1.rejected = state.inventory.rejected) :
    Counted (actions ++ [.take .inventory]) { state with
      queues := Function.update state.queues .inventory rest
      inventory := (state.inventory.reserve payment).1
      reserving := some ⟨outcome, correlation, false⟩ } := by
  have called := (state.inventory.reserve_counts payment).1
  rcases counted with ⟨announced, captured, reserved, calls, outcomes, published⟩
  rw [waiting, List.length_cons] at captured
  rw [idle] at captured reserved calls published
  have elsewhere : ∀ queue, queue ≠ .inventory →
      Function.update state.queues .inventory rest queue = state.queues queue :=
    fun queue other => Function.update_of_ne other rest state.queues
  simp only [Option.isSome_none, Option.elim_none, Option.any_none, Bool.toNat_false]
    at captured reserved calls published
  constructor <;>
    simp only [countP_concat, ServicesStep.relays, ServicesStep.retries, Bool.toNat_false,
      Bool.toNat_true, Function.update_self, uncounted, called, Option.isSome_some,
      Option.elim_some, Option.any_some, Reservation.holding, ite_self,
      elsewhere .payments (by decide), elsewhere .shipping (by decide), Nat.add_zero,
      Int.natCast_one] <;> omega

private theorem take (counted : Counted actions state) {queue : Queue} {rest : List Carried}
    (fits : state.Fits queue message) (idle : state.busy queue = false)
    (waiting : state.queues queue = message :: rest) :
    Counted (actions ++ [.take queue])
      (handle { state with queues := Function.update state.queues queue rest } message queue) := by
  cases queue with
  | payments =>
      rcases Event.placed_of_routed fits.2 with ⟨order, event⟩
      have free : state.paying = none := by simpa [busy] using idle
      rw [handle_placed event]
      rcases counted with ⟨announced, captured, reserved, calls, outcomes, published⟩
      rw [waiting, List.length_cons] at announced
      rw [free] at announced captured outcomes published
      have elsewhere : ∀ queue, queue ≠ .payments →
          Function.update state.queues .payments rest queue = state.queues queue :=
        fun queue other => Function.update_of_ne other rest state.queues
      simp only [Option.elim_none] at announced captured outcomes published
      constructor <;>
        simp only [countP_concat, ServicesStep.relays, ServicesStep.retries, Bool.toNat_false,
          Function.update_self, Option.elim_some, Paying.uncounted, Paying.out, Paying.capturing,
          ite_self, elsewhere .inventory (by decide), elsewhere .shipping (by decide),
          Nat.add_zero] <;> omega
  | inventory =>
      rcases Event.captured_of_routed fits.2 with ⟨payment, event⟩
      have free : state.reserving = none := by simpa [busy] using idle
      have uncounted := state.inventory.reserve_counters payment
      simp only [handle, event]
      cases ran : (state.inventory.reserve payment).2 with
      | error error => exact counted.raise waiting uncounted
      | ok outcome => exact counted.answer waiting free uncounted
  | shipping =>
      rcases Event.reserved_of_routed fits.2 with ⟨reservation, event⟩
      have free : state.dispatching = none := by simpa [busy] using idle
      rw [handle_reserved event]
      rcases counted with ⟨announced, captured, reserved, calls, outcomes, published⟩
      rw [waiting, List.length_cons] at reserved
      rw [free] at reserved published
      have elsewhere : ∀ queue, queue ≠ .shipping →
          Function.update state.queues .shipping rest queue = state.queues queue :=
        fun queue other => Function.update_of_ne other rest state.queues
      simp only [Option.isSome_none, Option.any_none, Bool.toNat_false] at reserved published
      constructor <;>
        simp only [countP_concat, ServicesStep.relays, ServicesStep.retries, Bool.toNat_false,
          Bool.toNat_true, Function.update_self, Option.isSome_some, Option.any_some,
          elsewhere .payments (by decide), elsewhere .inventory (by decide), Nat.add_zero] <;>
        omega
  | notifications =>
      have elsewhere : ∀ queue, queue ≠ .notifications →
          Function.update state.queues .notifications rest queue = state.queues queue :=
        fun queue other => Function.update_of_ne other rest state.queues
      rcases counted with ⟨announced, captured, reserved, calls, outcomes, published⟩
      constructor <;>
        simp only [handle, countP_concat, ServicesStep.relays, ServicesStep.retries,
          Bool.toNat_false, elsewhere .payments (by decide), elsewhere .inventory (by decide),
          elsewhere .shipping (by decide), Nat.add_zero] <;>
        assumption

private theorem claim (counted : Counted actions state) (enabled : state.Enabled .claim) :
    Counted (actions ++ [.claim]) (state.perform terms .claim) := by
  rcases Option.map_eq_some_iff.mp enabled with ⟨⟨order, correlation, await⟩, held, waits⟩
  cases waits
  rcases counted with ⟨announced, captured, reserved, calls, outcomes, published⟩
  rw [held] at announced captured outcomes published
  simp only [Option.elim_some, Paying.uncounted, Paying.out, Paying.capturing, ite_self]
    at announced captured outcomes published
  simp only [perform, held]
  split
  all_goals
    constructor <;>
      simp only [countP_concat, ServicesStep.relays, ServicesStep.retries, Bool.toNat_false,
        Option.elim_some, Option.elim_none, Paying.uncounted, Paying.out, Paying.capturing,
        ite_self, PaymentsService.refuse, Nat.add_zero] <;> omega

private theorem confirm (counted : Counted actions state) (enabled : state.Enabled .confirm) :
    Counted (actions ++ [.confirm]) (state.perform terms .confirm) := by
  rcases Option.map_eq_some_iff.mp enabled with ⟨⟨order, correlation, await⟩, held, waits⟩
  cases waits
  rcases counted with ⟨announced, captured, reserved, calls, outcomes, published⟩
  rw [held] at announced captured outcomes published
  simp only [Option.elim_some, Paying.uncounted, Paying.out, Paying.capturing, ite_self]
    at announced captured outcomes published
  simp only [perform, held]
  constructor <;>
    simp only [countP_concat, ServicesStep.relays, ServicesStep.retries, Bool.toNat_false,
      Option.elim_none, Nat.add_zero] <;> omega

private theorem sent (counted : Counted actions state) {service : Queue}
    (enabled : state.Enabled (.sent service)) :
    Counted (actions ++ [.sent service]) (state.perform terms (.sent service)) := by
  rcases counted with ⟨announced, captured, reserved, calls, outcomes, published⟩
  cases service with
  | payments =>
      have awaits : state.awaits = some (.publish true) := by simpa [Enabled, isOut] using enabled
      rcases Option.map_eq_some_iff.mp awaits with ⟨⟨order, correlation, await⟩, held, waits⟩
      cases waits
      rw [held] at announced captured outcomes published
      simp only [Option.elim_some, Paying.uncounted, Paying.out, Paying.capturing,
        Bool.toNat_true] at announced captured outcomes published
      simp only [perform, held]
      cases outcome : Fulfilment.charge order with
      | captured payment =>
          simp only [outcome, PaymentOutcome.event, Event.type, if_true] at captured
          constructor <;>
            simp only [countP_concat, ServicesStep.relays, ServicesStep.retries,
              Bool.toNat_false, Option.elim_some, Paying.uncounted, Paying.out,
              Paying.capturing, ite_self, PaymentsService.sent, Nat.add_zero] <;> omega
      | declined refusal =>
          simp only [outcome, PaymentOutcome.event, Event.type, String.reduceEq, if_false]
            at captured
          constructor <;>
            simp only [countP_concat, ServicesStep.relays, ServicesStep.retries,
              Bool.toNat_false, Option.elim_some, Paying.uncounted, Paying.out,
              Paying.capturing, ite_self, PaymentsService.sent, Nat.add_zero] <;> omega
  | inventory =>
      rcases (Option.any_eq_true ..).mp enabled with ⟨⟨outcome, correlation, out⟩, held, isOut⟩
      cases isOut
      rw [held] at captured reserved calls published
      simp only [Option.elim_some, Option.isSome_some, Option.any_some, Reservation.holding,
        Bool.toNat_true] at captured reserved calls published
      simp only [perform, held]
      cases outcome with
      | reserved reservation =>
          simp only [StockOutcome.event, Event.type, if_true] at reserved
          constructor <;>
            simp only [countP_concat, ServicesStep.relays, ServicesStep.retries,
              Bool.toNat_false, Option.elim_none, Option.isSome_none, Option.any_none,
              InventoryService.sent, Nat.add_zero, Int.natCast_add, Int.natCast_one] <;> omega
      | unavailable refusal =>
          simp only [StockOutcome.event, Event.type, String.reduceEq, if_false] at reserved
          constructor <;>
            simp only [countP_concat, ServicesStep.relays, ServicesStep.retries,
              Bool.toNat_false, Option.elim_none, Option.isSome_none, Option.any_none,
              InventoryService.sent, Nat.add_zero, Int.natCast_add, Int.natCast_one] <;> omega
  | shipping =>
      rcases (Option.any_eq_true ..).mp enabled with ⟨⟨event, correlation, out⟩, held, isOut⟩
      cases isOut
      rw [held] at reserved published
      simp only [Option.isSome_some, Option.any_some, Bool.toNat_true] at reserved published
      constructor <;>
        simp only [perform, countP_concat, ServicesStep.relays, ServicesStep.retries,
          Bool.toNat_false, Option.isSome_none, Option.any_none, ShippingService.sent,
          Nat.add_zero] <;> omega
  | notifications => cases enabled

private theorem retry (counted : Counted actions state) (laddered : message ∈ state.ladder) :
    Counted (actions ++ [.retry message]) (state.perform terms (.retry message)) := by
  have fewer := Multiset.card_erase_add_one laddered
  have elsewhere : ∀ queue, queue ≠ .inventory →
      Function.update state.queues .inventory (state.queues .inventory ++ [message]) queue =
        state.queues queue :=
    fun queue other => Function.update_of_ne other _ state.queues
  rcases counted with ⟨announced, captured, reserved, calls, outcomes, published⟩
  constructor <;>
    simp only [perform, countP_concat, ServicesStep.relays, ServicesStep.retries,
      Bool.toNat_false, Bool.toNat_true, Function.update_self, List.length_append,
      List.length_singleton, elsewhere .payments (by decide), elsewhere .shipping (by decide),
      Nat.add_zero, Int.natCast_add, Int.natCast_one] <;> omega

private theorem step {step : ServicesStep} (counted : Counted actions state) (honest : Honest state)
    (enabled : state.Enabled step) :
    Counted (actions ++ [step]) (state.perform terms step) := by
  cases step with
  | relay order => exact counted.relay order
  | publish service =>
      rcases Option.isSome_iff_exists.mp enabled with ⟨post, outgoing⟩
      simp only [perform, outgoing]
      exact counted.publish outgoing
  | take queue =>
      rcases List.exists_cons_of_ne_nil enabled.2 with ⟨message, rest, waiting⟩
      simp only [perform, waiting]
      exact counted.take (honest.pop waiting).1 enabled.1 waiting
  | claim => exact counted.claim enabled
  | confirm => exact counted.confirm enabled
  | sent service => exact counted.sent enabled
  | retry message => exact counted.retry enabled
  | place order =>
      exact counted.of_same ⟨rfl, rfl⟩ ⟨rfl, rfl, rfl, rfl, rfl, rfl, rfl, rfl, rfl⟩ ⟨rfl, rfl, rfl⟩
  | withStock sku quantity =>
      exact counted.of_same ⟨rfl, rfl⟩ ⟨rfl, rfl, rfl, rfl, rfl, rfl, rfl, rfl, rfl⟩ ⟨rfl, rfl, rfl⟩
  | withFlakyWarehouse count =>
      exact counted.of_same ⟨rfl, rfl⟩ ⟨rfl, rfl, rfl, rfl, rfl, rfl, rfl, rfl, rfl⟩ ⟨rfl, rfl, rfl⟩
  | pass duration =>
      exact counted.of_same ⟨rfl, rfl⟩ ⟨rfl, rfl, rfl, rfl, rfl, rfl, rfl, rfl, rfl⟩ ⟨rfl, rfl, rfl⟩

private theorem of_ran {Allowed : Services → ServicesStep → Prop}
    (ran : (services terms).Ran Allowed actions state) : Counted actions state :=
  ran.invariant Counted (fun _ first => by cases first; exact initial)
    fun _ _ _ reached counted _ enabled => counted.step (.of_reached reached) enabled

end Counted

end Services

/-! ## Distinct orders -/

def announcedIds (actions : List ServicesStep) : List String :=
  actions.filterMap fun step =>
    match step with
    | .relay order => some order.orderId
    | _ => none

private theorem mem_announcedIds (actions : List ServicesStep) (orderId : String) :
    orderId ∈ announcedIds actions ↔ 0 < actions.countP (ServicesStep.announces orderId) := by
  rw [announcedIds, List.mem_filterMap, List.countP_pos_iff]
  constructor
  · rintro ⟨step, member, named⟩
    refine ⟨step, member, ?_⟩
    cases step with
    | relay order => simpa [ServicesStep.announces] using named
    | _ => cases named
  · rintro ⟨step, member, announces⟩
    refine ⟨step, member, ?_⟩
    cases step with
    | relay order => simpa [ServicesStep.announces] using announces
    | _ => cases announces

def paidIds (posts : List Post) : List String :=
  (posts.filter (·.event.pays)).map (·.event.orderId)

private theorem count_paidIds (posts : List Post) (orderId : String) :
    (paidIds posts).count orderId =
      (typesOf posts orderId).count "PaymentCaptured" +
        (typesOf posts orderId).count "PaymentDeclined" := by
  induction posts with
  | nil => rfl
  | cons post posts induction =>
      have types : typesOf (post :: posts) orderId =
          (if post.event.orderId = orderId then [post.event.type] else []) ++
            typesOf posts orderId := by
        by_cases same : post.event.orderId = orderId <;> simp [typesOf, same]
      rw [types, List.count_append, List.count_append]
      by_cases same : post.event.orderId = orderId
      · cases event : post.event <;>
          simp [paidIds, event, Event.pays, Event.type] at induction ⊢ <;>
          simp [event] at same <;> simp [same, induction] <;> omega
      · cases event : post.event <;>
          simp [paidIds, event, Event.pays] at induction ⊢ <;>
          simp [event] at same <;> simp [same, induction]

/-- When the services have come to rest their counters add up. Payments has an outcome for
each order that was announced, and has refused all other announcements; inventory has decided
on what was captured but for what was given up, at one call of the warehouse for each
decision, each retry and each payment given up; shipping has shipped what was reserved;
and notifications has recorded one event for each. -/
theorem counters_add_up {terms : Lease.Terms Nat} {actions : List ServicesStep}
    {state : Services} (ran : (services terms).Ran (WithinRetention terms) actions state)
    (rest : state.AtRest) :
    state.payments.captured + state.payments.declined = (announcedIds actions).dedup.length ∧
    state.payments.captured + state.payments.declined + state.payments.duplicatesRefused =
      actions.countP ServicesStep.relays ∧
    state.payments.captured =
      state.inventory.reserved + state.inventory.rejected + state.deadLetters.card ∧
    state.inventory.warehouseCalls = state.inventory.reserved + state.inventory.rejected +
      state.deadLetters.card + actions.countP ServicesStep.retries ∧
    state.shipping.shipped = state.inventory.reserved ∧
    state.recorded.length = actions.countP ServicesStep.relays + state.payments.captured +
      state.payments.declined + state.inventory.reserved + state.inventory.rejected +
      state.shipping.shipped := by
  have reached := ran.reached
  rcases Services.Counted.of_ran ran with
    ⟨announced, captured, reserved, calls, outcomes, published⟩
  have unpaying : state.paying = none := by simpa [Services.busy] using rest.idle .payments
  have unreserving : state.reserving = none := by simpa [Services.busy] using rest.idle .inventory
  have undispatching : state.dispatching = none := by
    simpa [Services.busy] using rest.idle .shipping
  simp only [rest.empty, rest.unladdered, unpaying, unreserving, undispatching, List.length_nil,
    Multiset.card_zero, Option.elim_none, Option.isSome_none, Option.any_none,
    Bool.toNat_false] at announced captured reserved calls outcomes published
  have charged : Services.ChargedOnce state := .of_reached reached
  have nodup : (paidIds state.published).Nodup := by
    rw [List.nodup_iff_count_le_one]
    intro orderId
    rw [count_paidIds]
    exact charged.once orderId
  have same : ∀ orderId, orderId ∈ paidIds state.published ↔
      orderId ∈ (announcedIds actions).dedup := by
    intro orderId
    rw [List.mem_dedup, mem_announcedIds, ← times_placed_of_ran ran, ← List.count_pos_iff,
      count_paidIds]
    constructor
    · intro paid
      have told : Services.ToldInOrder state := .of_reached reached
      have nonempty : typesOf state.published orderId ≠ [] := by
        intro none
        simp [none] at paid
      exact List.count_pos_iff.mpr (List.mem_of_mem_head? ((told orderId).1 nonempty))
    · intro placed
      have decided := Services.decided_at_rest rest (.of_reached reached) charged
        (.of_reached orderId reached) placed
      simp only [Services.times] at decided
      omega
  have distinct := ((List.perm_ext_iff_of_nodup nodup (List.nodup_dedup _)).mpr same).length_eq
  rw [paidIds, List.length_map, ← List.countP_eq_length_filter, outcomes] at distinct
  rw [rest.recorded (.of_reached reached)]
  refine ⟨?_, ?_, ?_, ?_, ?_, ?_⟩ <;> omega

/-- Of two orders one is relayed twice. -/
theorem two_orders_add_up : ∃ state : Services,
    state.payments.captured + state.payments.declined = 2 ∧
      state.payments.captured + state.payments.declined + state.payments.duplicatesRefused = 3 ∧
      state.shipping.shipped = state.inventory.reserved := by
  have ran := TransitionSystem.Ran.of_isSome_run (services chargedTerms)
    (WithinRetention chargedTerms) rfl
    (.withStock "WIDGET" 5 :: paidFor widget.order ++ handling .inventory ++ handling .shipping ++
      [.relay widget.order, .take .payments, .claim] ++
      paidFor { widget.order with orderId := "order-2", total := 5000 } ++
      List.replicate 3 (.take .notifications))
    (by decide +kernel)
  have sums := counters_add_up ran (by decide +kernel)
  exact ⟨_, sums.1, sums.2.1, sums.2.2.2.2.1⟩

end AmqpApps.Fulfilment
