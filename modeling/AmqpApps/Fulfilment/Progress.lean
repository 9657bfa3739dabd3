import AmqpApps.Fulfilment.Traffic

/-! # How far an order has come

Inventory and shipping publish one event for each message. What they have not published
yet is on a queue, on the retry ladder, with a handler, or given up.
-/

namespace AmqpApps.Fulfilment

def typesOf (posts : List Post) (orderId : String) : List String :=
  (posts.filter fun post => post.event.orderId = orderId).map fun post => post.event.type

theorem typesOf_concat (posts : List Post) (post : Post) (orderId : String) :
    typesOf (posts ++ [post]) orderId =
      typesOf posts orderId ++ if post.event.orderId = orderId then [post.event.type] else [] := by
  by_cases same : post.event.orderId = orderId <;> simp [typesOf, same]

def Event.counts (event : Event) (type orderId : String) : Nat :=
  if event.orderId = orderId ∧ event.type = type then 1 else 0

def Carried.isAbout (orderId : String) (message : Carried) : Bool :=
  message.post.event.orderId == orderId

namespace Services

variable {terms : Lease.Terms Nat} {state next : Services} {message : Carried}
variable {orderId : String}

/-! ## How many messages are where -/

def times (state : Services) (type orderId : String) : Nat :=
  (typesOf state.published orderId).count type

def waiting (state : Services) (queue : Queue) (orderId : String) : Nat :=
  (state.queues queue).countP (Carried.isAbout orderId)

def pending (state : Services) (service : Queue) (orderId : String) : Nat :=
  ((state.outgoing service).any fun post => post.event.orderId == orderId).toNat

/-- The payments on which inventory has not published what it decides. -/
def undecided (state : Services) (orderId : String) : Nat :=
  state.waiting .inventory orderId + howMany (Carried.isAbout orderId) state.ladder +
    howMany (Carried.isAbout orderId) state.deadLetters + state.pending .inventory orderId

/-- The reservations whose shipment has not been published. -/
def unshipped (state : Services) (orderId : String) : Nat :=
  state.waiting .shipping orderId + state.pending .shipping orderId

theorem times_post (post : Post) (type : String) :
    (state.post post).times type orderId =
      state.times type orderId + post.event.counts type orderId := by
  rw [times, Services.post, typesOf_concat, List.count_append, times, Event.counts]
  by_cases same : post.event.orderId = orderId
  · by_cases kind : post.event.type = type <;> simp [same, kind]
  · simp [same]

theorem waiting_post (state : Services) (orderId : String) {post : Post} {queue : Queue}
    {type : String} (receives : routed Contracts.topology post.event.routingKey queue = true ↔
      post.event.type = type) :
    (state.post post).waiting queue orderId =
      state.waiting queue orderId + post.event.counts type orderId := by
  simp only [waiting, Services.post, route, Event.counts, ← receives]
  by_cases bound : routed Contracts.topology post.event.routingKey queue = true
  · simp [bound, List.countP_append, List.countP_cons, Carried.isAbout]
  · simp [bound]

private theorem undecided_post (post : Post) :
    (state.post post).undecided orderId =
      state.undecided orderId + post.event.counts "PaymentCaptured" orderId := by
  have waiting := waiting_post state orderId (Event.routed_topology post.event .inventory)
  have elsewhere : (state.post post).pending .inventory orderId =
      state.pending .inventory orderId := rfl
  rw [undecided, waiting, elsewhere, undecided]
  simp only [Services.post]
  omega

private theorem unshipped_post (post : Post) :
    (state.post post).unshipped orderId =
      state.unshipped orderId + post.event.counts "StockReserved" orderId := by
  have waiting := waiting_post state orderId (Event.routed_topology post.event .shipping)
  have elsewhere : (state.post post).pending .shipping orderId =
      state.pending .shipping orderId := rfl
  rw [unshipped, waiting, elsewhere, unshipped]
  omega

theorem pending_of_outgoing {service : Queue} {post : Post}
    (outgoing : state.outgoing service = some post) :
    state.pending service orderId = if post.event.orderId = orderId then 1 else 0 := by
  rw [pending, outgoing]
  by_cases same : post.event.orderId = orderId <;> simp [same]

theorem counts_of_outgoing (orderId : String) {service : Queue} {post : Post}
    (outgoing : state.outgoing service = some post) (type : String) :
    post.event.counts type orderId =
      if post.event.type = type then state.pending service orderId else 0 := by
  rw [pending_of_outgoing outgoing, Event.counts]
  by_cases kind : post.event.type = type <;> simp [kind]

theorem pending_markOut (service other : Queue) :
    (state.markOut service).pending other orderId =
      if other = service then 0 else state.pending other orderId := by
  rw [pending, outgoing_markOut]
  split <;> rfl

private theorem undecided_markOut (state : Services) (orderId : String) (service : Queue) :
    (state.markOut service).undecided orderId +
        (if service = .inventory then state.pending .inventory orderId else 0) =
      state.undecided orderId := by
  rw [undecided, pending_markOut, undecided, waiting, markOut_queues, markOut_ladder,
    markOut_deadLetters, waiting]
  cases service <;> simp

private theorem unshipped_markOut (state : Services) (orderId : String) (service : Queue) :
    (state.markOut service).unshipped orderId +
        (if service = .shipping then state.pending .shipping orderId else 0) =
      state.unshipped orderId := by
  rw [unshipped, pending_markOut, unshipped, waiting, markOut_queues, waiting]
  cases service <;> simp

theorem waiting_cons (orderId : String) {queue : Queue} {rest : List Carried}
    (waiting : state.queues queue = message :: rest) :
    state.waiting queue orderId =
      rest.countP (Carried.isAbout orderId) + (message.isAbout orderId).toNat := by
  rw [Services.waiting, waiting, List.countP_cons]
  cases message.isAbout orderId <;> rfl

private theorem undecided_retryLater :
    (state.retryLater message).undecided orderId =
      state.undecided orderId + (message.isAbout orderId).toNat := by
  have again : Carried.isAbout orderId { message with attempt := message.attempt + 1 } =
    message.isAbout orderId := rfl
  simp only [undecided, waiting, pending, retryLater_queues, retryLater_outgoing]
  unfold retryLater
  split
  · simp only [howMany_cons, again]
    omega
  · simp only [howMany_cons]
    omega

theorem pending_of_idle (orderId : String) {queue : Queue} (idle : state.busy queue = false) :
    state.pending queue orderId = 0 := by
  cases queue with
  | payments =>
      have free : state.paying = none := by simpa [busy] using idle
      simp [pending, outgoing, free]
  | inventory =>
      have free : state.reserving = none := by simpa [busy] using idle
      simp [pending, outgoing, free]
  | shipping =>
      have free : state.dispatching = none := by simpa [busy] using idle
      simp [pending, outgoing, free]
  | notifications => rfl

theorem pending_of_reserving {outcome : StockOutcome} {correlation : String}
    (reserving : state.reserving = some ⟨outcome, correlation, false⟩) :
    state.pending .inventory orderId = (outcome.orderId == orderId).toNat := by
  simp [pending, outgoing, reserving]

private theorem pending_of_dispatching {event : OrderShipped} {correlation : String}
    (dispatching : state.dispatching = some ⟨event, correlation, false⟩) :
    state.pending .shipping orderId = (event.orderId == orderId).toNat := by
  simp [pending, outgoing, dispatching, Event.orderId]

section Taken

variable {rest : List Carried}

private theorem undecided_raised (waiting : state.queues .inventory = message :: rest)
    (service : InventoryService) :
    undecided (retryLater { state with
      queues := Function.update state.queues .inventory rest, inventory := service } message)
      orderId = state.undecided orderId := by
  have before := waiting_cons orderId waiting
  rw [undecided_retryLater, undecided, undecided, before]
  simp only [Services.waiting, Function.update_self]
  have same : pending { state with
    queues := Function.update state.queues .inventory rest, inventory := service } .inventory
      orderId = state.pending .inventory orderId := rfl
  omega

private theorem undecided_started (waiting : state.queues .inventory = message :: rest)
    (idle : state.busy .inventory = false) {outcome : StockOutcome}
    (same : outcome.orderId = message.post.event.orderId) (service : InventoryService)
    (correlation : String) :
    undecided { state with
      queues := Function.update state.queues .inventory rest
      inventory := service
      reserving := some ⟨outcome, correlation, false⟩ } orderId = state.undecided orderId := by
  have before := waiting_cons orderId waiting
  have free := pending_of_idle orderId idle
  rw [undecided, undecided, before, free, pending_of_reserving rfl, same]
  simp only [Services.waiting, Function.update_self, Carried.isAbout]
  omega

private theorem unshipped_started (waiting : state.queues .shipping = message :: rest)
    (idle : state.busy .shipping = false) {event : OrderShipped}
    (same : event.orderId = message.post.event.orderId) (correlation : String) :
    unshipped { state with
      queues := Function.update state.queues .shipping rest
      dispatching := some ⟨event, correlation, false⟩ } orderId = state.unshipped orderId := by
  have before := waiting_cons orderId waiting
  have free := pending_of_idle orderId idle
  rw [unshipped, unshipped, before, free, pending_of_dispatching rfl, same]
  simp only [Services.waiting, Function.update_self, Carried.isAbout, add_zero]

end Taken

/-! ## For every event there was a message -/

/-- Stock is decided on once for each payment, and shipped once for each reservation. -/
structure Balanced (orderId : String) (state : Services) : Prop where
  decided : state.times "PaymentCaptured" orderId =
    state.undecided orderId + state.times "StockReserved" orderId +
      state.times "StockUnavailable" orderId
  shipped : state.times "StockReserved" orderId =
    state.unshipped orderId + state.times "OrderShipped" orderId

namespace Balanced

private theorem initial : Balanced orderId .initial := by
  constructor
  · rfl
  · rfl

private theorem of_quiet (balanced : Balanced orderId state) (quiet : Quiet state next) :
    Balanced orderId next := by
  rcases balanced with ⟨decided, shipped⟩
  have inventory := quiet.outgoing .inventory (by decide)
  have shipping := quiet.outgoing .shipping (by decide)
  constructor
  · simpa only [times, undecided, waiting, pending, quiet.published, quiet.queues, quiet.ladder,
      quiet.deadLetters, inventory] using decided
  · simpa only [times, unshipped, waiting, pending, quiet.published, quiet.queues,
      shipping] using shipped

private theorem post (balanced : Balanced orderId state) {post : Post}
    (unprompted : post.event.type ∉ ["StockReserved", "StockUnavailable", "OrderShipped"]) :
    Balanced orderId (state.post post) := by
  rcases balanced with ⟨decided, shipped⟩
  simp only [List.mem_cons, List.not_mem_nil, or_false, not_or] at unprompted
  constructor
  · rw [times_post, undecided_post, times_post, times_post, decided]
    simp only [Event.counts, unprompted, and_false, if_false]
    omega
  · rw [times_post, unshipped_post, times_post, shipped]
    simp only [Event.counts, unprompted, and_false, if_false]
    omega

private theorem publish (balanced : Balanced orderId state) {service : Queue} {post : Post}
    (outgoing : state.outgoing service = some post) :
    Balanced orderId ((state.markOut service).post post) := by
  have counts := counts_of_outgoing orderId outgoing
  have undecided := undecided_markOut state orderId service
  have unshipped := unshipped_markOut state orderId service
  have times : ∀ type, (state.markOut service).times type orderId = state.times type orderId :=
    fun type => by simp only [Services.times, markOut_published]
  rcases balanced with ⟨decided, shipped⟩
  cases service with
  | payments =>
      rcases outgoing_payments outgoing with ⟨order, -, event⟩
      simp only [reduceCtorEq, if_false, add_zero] at undecided unshipped
      have marked : Balanced orderId (state.markOut .payments) :=
        ⟨by rw [times, undecided, times, times, decided],
          by rw [times, unshipped, times, shipped]⟩
      apply marked.post
      rw [event]
      rcases (charge order).type_event with kind | kind <;> simp [kind]
  | inventory =>
      rcases outgoing_inventory outgoing with ⟨outcome, -, event⟩
      simp only [reduceCtorEq, if_true, if_false, add_zero] at undecided unshipped
      have kind : post.event.type = "StockReserved" ∨ post.event.type = "StockUnavailable" := by
        rw [event]
        exact outcome.type_event
      constructor
      · rw [times_post, undecided_post, times_post, times_post, times, times, times]
        rcases kind with kind | kind <;>
          simp only [counts, kind, String.reduceEq, if_true, if_false] <;> omega
      · rw [times_post, unshipped_post, times_post, times, times, unshipped]
        rcases kind with kind | kind <;>
          simp only [counts, kind, String.reduceEq, if_true, if_false] <;> omega
  | shipping =>
      rcases outgoing_shipping outgoing with ⟨shipment, -, event⟩
      simp only [reduceCtorEq, if_true, if_false, add_zero] at undecided unshipped
      have kind : post.event.type = "OrderShipped" := by
        rw [event]
        rfl
      constructor
      · rw [times_post, undecided_post, times_post, times_post, times, times, times, undecided]
        simp only [counts, kind, String.reduceEq, if_false]
        omega
      · rw [times_post, unshipped_post, times_post, times, times]
        simp only [counts, kind, String.reduceEq, if_true, if_false]
        omega
  | notifications => cases outgoing

private theorem take (balanced : Balanced orderId state) {queue : Queue} {rest : List Carried}
    (fits : state.Fits queue message) (idle : state.busy queue = false)
    (waiting : state.queues queue = message :: rest) :
    Balanced orderId
      (handle { state with queues := Function.update state.queues queue rest } message queue) := by
  rcases balanced with ⟨decided, shipped⟩
  cases queue with
  | payments =>
      rcases Event.placed_of_routed fits.2 with ⟨order, event⟩
      rw [handle_placed event]
      exact ⟨decided, shipped⟩
  | inventory =>
      rcases Event.captured_of_routed fits.2 with ⟨payment, event⟩
      rcases handle_captured event with ⟨service, raised⟩ | ⟨service, outcome, same, ran⟩
      · rw [raised]
        constructor
        · rw [undecided_raised waiting]
          simpa only [times, retryLater_published] using decided
        · simp only [times, unshipped, Services.waiting, pending, retryLater_published,
            retryLater_queues, retryLater_outgoing]
          exact shipped
      · rw [ran]
        constructor
        · rw [undecided_started waiting idle (by rw [same, event]; rfl)]
          exact decided
        · exact shipped
  | shipping =>
      rcases Event.reserved_of_routed fits.2 with ⟨reservation, event⟩
      rw [handle_reserved event]
      constructor
      · exact decided
      · rw [unshipped_started waiting idle (by rw [event]; rfl)]
        exact shipped
  | notifications => exact ⟨decided, shipped⟩

private theorem retry (balanced : Balanced orderId state) (laddered : message ∈ state.ladder) :
    Balanced orderId (state.perform terms (.retry message)) := by
  rcases balanced with ⟨decided, shipped⟩
  have same : (state.perform terms (.retry message)).undecided orderId =
      state.undecided orderId := by
    have erased := howMany_erase (Carried.isAbout orderId) laddered
    have elsewhere : (state.perform terms (.retry message)).pending .inventory orderId =
      state.pending .inventory orderId := rfl
    rw [undecided, elsewhere, undecided, erased]
    simp only [waiting, perform, Function.update_self, List.countP_append, List.countP_singleton]
    cases message.isAbout orderId with
    | true =>
        simp only [if_true, Bool.toNat_true]
        omega
    | false =>
        simp only [Bool.false_eq_true, if_false, Bool.toNat_false]
        omega
  constructor
  · rw [same]
    exact decided
  · exact shipped

private theorem step {step : ServicesStep} (balanced : Balanced orderId state)
    (honest : Honest state)
    (enabled : state.Enabled step) : Balanced orderId (state.perform terms step) := by
  cases step with
  | relay order => exact balanced.post (by simp [Event.type])
  | publish service =>
      rcases Option.isSome_iff_exists.mp enabled with ⟨post, outgoing⟩
      simp only [perform, outgoing]
      exact balanced.publish outgoing
  | take queue =>
      rcases List.exists_cons_of_ne_nil enabled.2 with ⟨message, rest, waiting⟩
      simp only [perform, waiting]
      exact balanced.take (honest.pop waiting).1 enabled.1 waiting
  | retry message => exact balanced.retry enabled
  | _ => exact balanced.of_quiet (quiet terms enabled id)

theorem of_reached {Allowed : Services → ServicesStep → Prop} (orderId : String)
    (reached : (services terms).Reached Allowed state) : Balanced orderId state :=
  reached.invariant_using Honest (Balanced orderId) (fun _ => Honest.of_reached)
    (fun _ first => by cases first; exact initial)
    fun _ _ honest balanced _ enabled => balanced.step honest enabled

end Balanced

end Services

end AmqpApps.Fulfilment
