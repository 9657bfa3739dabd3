import AmqpApps.Fulfilment.Services

/-! # The messages between the services

Most steps leave the messages alone. The others publish one, take one off its queue, or
put one back from the retry ladder.
-/

namespace AmqpApps.Fulfilment

/-! ## What a queue receives -/

namespace Event

variable {event : Event}

theorem placed_of_routed
    (bound : routed Contracts.topology event.routingKey .payments = true) :
    ∃ order, event = .placed order := by
  have named := (routed_topology event .payments).mp bound
  cases event <;> simp [type] at named ⊢

theorem captured_of_routed
    (bound : routed Contracts.topology event.routingKey .inventory = true) :
    ∃ payment, event = .captured payment := by
  have named := (routed_topology event .inventory).mp bound
  cases event <;> simp [type] at named ⊢

theorem reserved_of_routed
    (bound : routed Contracts.topology event.routingKey .shipping = true) :
    ∃ reservation, event = .reserved reservation := by
  have named := (routed_topology event .shipping).mp bound
  cases event <;> simp [type] at named ⊢

end Event

theorem InventoryService.reserve_orderId {service : InventoryService} {payment : PaymentCaptured}
    {outcome : StockOutcome} (ran : (service.reserve payment).2 = .ok outcome) :
    outcome.orderId = payment.orderId := by
  rw [reserve] at ran
  split at ran
  · cases ran
  · simp only at ran
    split at ran <;> cases ran <;> rfl

@[simp] theorem StockOutcome.orderId_event (outcome : StockOutcome) :
    outcome.event.orderId = outcome.orderId := by
  cases outcome <;> rfl

theorem StockOutcome.type_event (outcome : StockOutcome) :
    outcome.event.type = "StockReserved" ∨ outcome.event.type = "StockUnavailable" := by
  cases outcome with
  | reserved reservation => exact .inl rfl
  | unavailable refusal => exact .inr rfl

@[simp] theorem PaymentOutcome.orderId_event (outcome : PaymentOutcome) :
    outcome.event.orderId = outcome.orderId := by
  cases outcome <;> rfl

theorem PaymentOutcome.type_event (outcome : PaymentOutcome) :
    outcome.event.type = "PaymentCaptured" ∨ outcome.event.type = "PaymentDeclined" := by
  cases outcome with
  | captured payment => exact .inl rfl
  | declined refusal => exact .inr rfl

namespace Services

variable {terms : Lease.Terms Nat} {state next : Services} {message : Carried}

/-! ## What the parts of a step leave alone -/

section Untouched

variable (state) (message) (service queue : Queue)

@[simp] theorem markOut_published : (state.markOut service).published = state.published := by
  cases service <;> rfl

@[simp] theorem markOut_queues : (state.markOut service).queues = state.queues := by
  cases service <;> rfl

@[simp] theorem markOut_ladder : (state.markOut service).ladder = state.ladder := by
  cases service <;> rfl

@[simp] theorem markOut_deadLetters :
    (state.markOut service).deadLetters = state.deadLetters := by
  cases service <;> rfl

@[simp] theorem markOut_recorded : (state.markOut service).recorded = state.recorded := by
  cases service <;> rfl

@[simp] theorem markOut_timeline : (state.markOut service).timeline = state.timeline := by
  cases service <;> rfl

@[simp] theorem retryLater_published :
    (state.retryLater message).published = state.published := by
  unfold retryLater
  split <;> rfl

@[simp] theorem retryLater_queues : (state.retryLater message).queues = state.queues := by
  unfold retryLater
  split <;> rfl

@[simp] theorem retryLater_paying : (state.retryLater message).paying = state.paying := by
  unfold retryLater
  split <;> rfl

@[simp] theorem retryLater_charged : (state.retryLater message).charged = state.charged := by
  unfold retryLater
  split <;> rfl

@[simp] theorem retryLater_recorded : (state.retryLater message).recorded = state.recorded := by
  unfold retryLater
  split <;> rfl

@[simp] theorem retryLater_timeline : (state.retryLater message).timeline = state.timeline := by
  unfold retryLater
  split <;> rfl

@[simp] theorem retryLater_outgoing :
    (state.retryLater message).outgoing = state.outgoing := by
  unfold retryLater
  split <;> rfl

@[simp] theorem handle_published :
    (state.handle message queue).published = state.published := by
  cases queue <;> simp only [handle] <;> repeat' split
  all_goals simp

@[simp] theorem handle_charged : (state.handle message queue).charged = state.charged := by
  cases queue <;> simp only [handle] <;> repeat' split
  all_goals simp

@[simp] theorem handle_queues : (state.handle message queue).queues = state.queues := by
  cases queue <;> simp only [handle] <;> repeat' split
  all_goals simp

theorem handle_paying (other : queue ≠ .payments) :
    (state.handle message queue).paying = state.paying := by
  cases queue <;> simp only [handle] <;> repeat' split
  all_goals simp at other ⊢

private theorem handle_recorded (other : queue ≠ .notifications) :
    (state.handle message queue).recorded = state.recorded ∧
      (state.handle message queue).timeline = state.timeline := by
  cases queue <;> simp only [handle] <;> repeat' split
  all_goals simp at other ⊢

end Untouched

/-! ## What a handler starts -/

theorem handle_placed {order : OrderPlaced} (event : message.post.event = .placed order) :
    state.handle message .payments =
      { state with paying := some ⟨order, message.post.correlation, .claim⟩ } := by
  simp [handle, event]

theorem handle_captured {payment : PaymentCaptured}
    (event : message.post.event = .captured payment) :
    (∃ service, state.handle message .inventory =
      retryLater { state with inventory := service } message) ∨
    ∃ service outcome, outcome.orderId = payment.orderId ∧
      state.handle message .inventory =
        { state with
          inventory := service
          reserving := some ⟨outcome, message.post.correlation, false⟩ } := by
  simp only [handle, event]
  cases ran : (state.inventory.reserve payment).2 with
  | error error => exact .inl ⟨_, rfl⟩
  | ok outcome => exact .inr ⟨_, outcome, InventoryService.reserve_orderId ran, rfl⟩

theorem handle_reserved {reservation : StockReserved}
    (event : message.post.event = .reserved reservation) :
    state.handle message .shipping =
      { state with
        dispatching := some ⟨ShippingService.dispatch reservation, message.post.correlation,
          false⟩ } := by
  simp [handle, event]

/-! ## What is about to be published -/

theorem outgoing_payments {post : Post} (outgoing : state.outgoing .payments = some post) :
    ∃ order, state.paying = some ⟨order, post.correlation, .publish false⟩ ∧
      post.event = (charge order).event := by
  simp only [Services.outgoing] at outgoing
  split at outgoing
  · rename_i order correlation paying
    cases outgoing
    exact ⟨order, paying, rfl⟩
  · cases outgoing

theorem outgoing_inventory {post : Post} (outgoing : state.outgoing .inventory = some post) :
    ∃ outcome, state.reserving = some ⟨outcome, post.correlation, false⟩ ∧
      post.event = outcome.event := by
  simp only [Services.outgoing] at outgoing
  split at outgoing
  · rename_i outcome correlation reserving
    cases outgoing
    exact ⟨outcome, reserving, rfl⟩
  · cases outgoing

theorem outgoing_shipping {post : Post} (outgoing : state.outgoing .shipping = some post) :
    ∃ event, state.dispatching = some ⟨event, post.correlation, false⟩ ∧
      post.event = .shipped event := by
  simp only [Services.outgoing] at outgoing
  split at outgoing
  · rename_i event correlation dispatching
    cases outgoing
    exact ⟨event, dispatching, rfl⟩
  · cases outgoing

theorem outgoing_markOut (service other : Queue) :
    (state.markOut service).outgoing other =
      if other = service then none else state.outgoing other := by
  cases service with
  | payments => cases other <;> cases held : state.paying <;> simp [outgoing, markOut, held]
  | inventory => cases other <;> cases held : state.reserving <;> simp [outgoing, markOut, held]
  | shipping => cases other <;> cases held : state.dispatching <;> simp [outgoing, markOut, held]
  | notifications => cases other <;> simp [outgoing, markOut]

/-! ## The steps that touch no message -/

/-- No message comes, goes or moves. -/
structure Quiet (state next : Services) : Prop where
  published : next.published = state.published
  queues : next.queues = state.queues
  ladder : next.ladder = state.ladder
  deadLetters : next.deadLetters = state.deadLetters
  recorded : next.recorded = state.recorded
  timeline : next.timeline = state.timeline
  outgoing : ∀ service, service ≠ .payments → next.outgoing service = state.outgoing service
  paying : ∀ paying, next.paying = some paying →
    ∃ await, state.paying = some { paying with await }

private theorem Quiet.refl : Quiet state state :=
  ⟨rfl, rfl, rfl, rfl, rfl, rfl, fun _ _ => rfl, fun paying held => ⟨paying.await, held⟩⟩

private theorem quiet_aside {clock : Nat} {placed : List OrderPlaced} {inventory : InventoryService}
    {shipping : ShippingService} {reserving : Option Reservation} {dispatching : Option Dispatch}
    (same : ∀ service,
      outgoing { state with reserving, dispatching } service = state.outgoing service) :
    Quiet state { state with clock, placed, inventory, shipping, reserving, dispatching } where
  published := rfl
  queues := rfl
  ladder := rfl
  deadLetters := rfl
  recorded := rfl
  timeline := rfl
  outgoing service _ := same service
  paying paying held := ⟨paying.await, held⟩

private theorem quiet_payments {charged : Lease.Store String Nat} {payments : PaymentsService}
    {moved : Option Paying}
    (kept : ∀ paying, moved = some paying →
      ∃ await, state.paying = some { paying with await }) :
    Quiet state { state with charged, payments, paying := moved } where
  published := rfl
  queues := rfl
  ladder := rfl
  deadLetters := rfl
  recorded := rfl
  timeline := rfl
  outgoing service other := by cases service <;> simp [outgoing] at other ⊢
  paying := kept

def Touching : ServicesStep → Prop
  | .relay _ | .publish _ | .take _ | .retry _ => True
  | _ => False

/-- All steps but four are quiet. -/
theorem quiet (terms : Lease.Terms Nat) {step : ServicesStep} (enabled : state.Enabled step)
    (still : ¬Touching step) : Quiet state (state.perform terms step) := by
  cases step with
  | relay order => exact absurd trivial still
  | publish service => exact absurd trivial still
  | take queue => exact absurd trivial still
  | retry message => exact absurd trivial still
  | place order => exact quiet_aside fun _ => rfl
  | withStock sku quantity => exact quiet_aside fun _ => rfl
  | withFlakyWarehouse count => exact quiet_aside fun _ => rfl
  | pass duration => exact quiet_aside fun _ => rfl
  | claim =>
      cases held : state.paying with
      | none =>
          simp only [perform, held]
          exact .refl
      | some paying =>
          simp only [perform, held]
          split
          · exact quiet_payments fun next moved => by
              cases moved
              exact ⟨paying.await, held⟩
          · exact quiet_payments fun next moved => by cases moved
  | confirm =>
      cases held : state.paying with
      | none =>
          simp only [perform, held]
          exact .refl
      | some paying =>
          simp only [perform, held]
          exact quiet_payments fun next moved => by cases moved
  | sent service =>
      cases service with
      | notifications => exact .refl
      | payments =>
          cases held : state.paying with
          | none =>
              simp only [perform, held]
              exact .refl
          | some paying =>
              simp only [perform, held]
              exact quiet_payments fun next moved => by
                cases moved
                exact ⟨paying.await, held⟩
      | inventory =>
          cases held : state.reserving with
          | none =>
              simp only [perform, held]
              exact .refl
          | some call =>
              have out : call.out = true := by simpa [Enabled, isOut, held] using enabled
              rcases call with ⟨outcome, correlation, _⟩
              subst out
              simp only [perform, held]
              exact quiet_aside fun service => by cases service <;> simp [outgoing, held]
      | shipping =>
          cases held : state.dispatching with
          | none => simp [Enabled, isOut, held] at enabled
          | some call =>
              have out : call.out = true := by simpa [Enabled, isOut, held] using enabled
              rcases call with ⟨event, correlation, _⟩
              subst out
              exact quiet_aside fun service => by cases service <;> simp [outgoing, held]

/-! ## Every message is about its order -/

def Fits (state : Services) (queue : Queue) (message : Carried) : Prop :=
  message.post ∈ state.published ∧
    routed Contracts.topology message.post.event.routingKey queue = true

/-- The correlation id is carried forward. -/
structure Honest (state : Services) : Prop where
  published : ∀ post ∈ state.published, post.correlation = post.event.orderId
  queued : ∀ queue, ∀ message ∈ state.queues queue, state.Fits queue message
  laddered : ∀ message ∈ state.ladder, state.Fits .inventory message
  paying : ∀ paying, state.paying = some paying →
    ⟨.placed paying.order, paying.correlation⟩ ∈ state.published
  outgoing : ∀ service, service ≠ .payments → ∀ post, state.outgoing service = some post →
    post.correlation = post.event.orderId

namespace Honest

theorem initial : Honest .initial where
  published := by simp [Services.initial]
  queued := by simp [Services.initial]
  laddered := by simp [Services.initial]
  paying := by simp [Services.initial]
  outgoing service _ := by cases service <;> simp [Services.initial, Services.outgoing]

private theorem of_quiet (honest : Honest state) (quiet : Quiet state next) : Honest next where
  published := by
    rw [quiet.published]
    exact honest.published
  queued queue message member := by
    rw [quiet.queues] at member
    rw [Fits, quiet.published]
    exact honest.queued queue message member
  laddered message member := by
    rw [quiet.ladder] at member
    rw [Fits, quiet.published]
    exact honest.laddered message member
  paying paying held := by
    rcases quiet.paying paying held with ⟨await, before⟩
    rw [quiet.published]
    exact honest.paying { paying with await } before
  outgoing service other := by
    rw [quiet.outgoing service other]
    exact honest.outgoing service other

private theorem outgoing_any (honest : Honest state) {service : Queue} {post : Post}
    (outgoing : state.outgoing service = some post) : post.correlation = post.event.orderId := by
  by_cases payments : service = .payments
  · subst payments
    rcases outgoing_payments outgoing with ⟨order, held, event⟩
    have placed := honest.published _ (honest.paying _ held)
    rw [event, PaymentOutcome.orderId_event, charge_orderId]
    exact placed
  · exact honest.outgoing service payments post outgoing

private theorem post (honest : Honest state) {post : Post}
    (forward : post.correlation = post.event.orderId) : Honest (state.post post) where
  published other member := by
    rcases List.mem_append.mp member with before | now
    · exact honest.published other before
    · rw [List.mem_singleton.mp now]
      exact forward
  queued queue message member := by
    rcases mem_route member with before | ⟨bound, rfl⟩
    · rcases honest.queued queue message before with ⟨known, fits⟩
      exact ⟨List.mem_append_left _ known, fits⟩
    · exact ⟨List.mem_append_right _ (List.mem_singleton.mpr rfl), bound⟩
  laddered message member := by
    rcases honest.laddered message member with ⟨known, fits⟩
    exact ⟨List.mem_append_left _ known, fits⟩
  paying paying held := List.mem_append_left _ (honest.paying paying held)
  outgoing := honest.outgoing

private theorem markOut (honest : Honest state) (service : Queue) :
    Honest (state.markOut service) where
  published := by simpa using honest.published
  queued queue message member := by
    simp only [Fits, markOut_published]
    rw [markOut_queues] at member
    exact honest.queued queue message member
  laddered message member := by
    simp only [Fits, markOut_published]
    rw [markOut_ladder] at member
    exact honest.laddered message member
  paying paying held := by
    rw [markOut_published]
    cases service with
    | payments =>
        rcases Option.map_eq_some_iff.mp held with ⟨before, holding, rfl⟩
        exact honest.paying before holding
    | inventory => exact honest.paying paying held
    | shipping => exact honest.paying paying held
    | notifications => exact honest.paying paying held
  outgoing other different post outgoing := by
    rw [outgoing_markOut] at outgoing
    split at outgoing
    · cases outgoing
    · exact honest.outgoing other different post outgoing

private theorem retryLater (honest : Honest state) (fits : state.Fits .inventory message) :
    Honest (state.retryLater message) where
  published := by simpa using honest.published
  queued := by simpa [Fits] using honest.queued
  laddered other member := by
    rw [Fits, retryLater_published]
    unfold Services.retryLater at member
    split at member
    · rcases Multiset.mem_cons.mp member with rfl | before
      · exact fits
      · exact honest.laddered other before
    · exact honest.laddered other member
  paying := by simpa using honest.paying
  outgoing := by simpa using honest.outgoing

theorem pop (honest : Honest state) {queue : Queue} {rest : List Carried}
    (waiting : state.queues queue = message :: rest) :
    state.Fits queue message ∧
      Honest { state with queues := Function.update state.queues queue rest } := by
  constructor
  · apply honest.queued
    rw [waiting]
    exact List.mem_cons_self
  · exact { honest with
      queued := by
        intro other carried member
        apply honest.queued
        by_cases same : other = queue
        · subst same
          rw [waiting]
          exact List.mem_cons_of_mem _ (by simpa using member)
        · simpa [Function.update_of_ne same] using member }

private theorem handle (honest : Honest state) {queue : Queue} (fits : state.Fits queue message) :
    Honest (state.handle message queue) := by
  rcases fits with ⟨known, bound⟩
  have forward := honest.published _ known
  cases queue with
  | payments =>
      rcases Event.placed_of_routed bound with ⟨order, event⟩
      rw [handle_placed event]
      exact { honest with
        paying := by
          intro paying held
          cases held
          rw [← event]
          exact known
        outgoing := by
          intro service other
          have before := honest.outgoing service other
          cases service with
          | payments => exact absurd rfl other
          | inventory => exact before
          | shipping => exact before
          | notifications => exact before }
  | inventory =>
      rcases Event.captured_of_routed bound with ⟨payment, event⟩
      rcases handle_captured event with ⟨service, raised⟩ | ⟨service, outcome, same, ran⟩
      · rw [raised]
        exact (honest.of_quiet (quiet_aside fun _ => rfl)).retryLater ⟨known, bound⟩
      · rw [ran]
        rw [event] at forward
        exact { honest with
          outgoing := by
            intro service other post outgoing
            cases service with
            | payments => exact absurd rfl other
            | inventory =>
                cases outgoing
                rw [StockOutcome.orderId_event, same]
                exact forward
            | shipping => exact honest.outgoing .shipping other post outgoing
            | notifications => cases outgoing }
  | shipping =>
      rcases Event.reserved_of_routed bound with ⟨reservation, event⟩
      rw [handle_reserved event]
      rw [event] at forward
      exact { honest with
        outgoing := by
          intro service other post outgoing
          cases service with
          | payments => exact absurd rfl other
          | inventory => exact honest.outgoing .inventory other post outgoing
          | shipping =>
              cases outgoing
              exact forward
          | notifications => cases outgoing }
  | notifications => exact { honest with }

private theorem retry (honest : Honest state) (laddered : message ∈ state.ladder) :
    Honest (state.perform terms (.retry message)) where
  published := honest.published
  queued queue carried member := by
    simp only [perform] at member
    by_cases same : queue = .inventory
    · subst same
      rw [Function.update_self] at member
      rcases List.mem_append.mp member with before | now
      · exact honest.queued .inventory carried before
      · rw [List.mem_singleton.mp now]
        exact honest.laddered message laddered
    · rw [Function.update_of_ne same] at member
      exact honest.queued queue carried member
  laddered carried member := honest.laddered carried (Multiset.mem_of_mem_erase member)
  paying := honest.paying
  outgoing := honest.outgoing

theorem step {step : ServicesStep} (honest : Honest state) (enabled : state.Enabled step) :
    Honest (state.perform terms step) := by
  cases step with
  | relay order => exact honest.post rfl
  | publish service =>
      rcases Option.isSome_iff_exists.mp enabled with ⟨post, outgoing⟩
      simp only [perform, outgoing]
      exact (honest.markOut service).post (honest.outgoing_any outgoing)
  | take queue =>
      rcases List.exists_cons_of_ne_nil enabled.2 with ⟨message, rest, waiting⟩
      simp only [perform, waiting]
      rcases honest.pop waiting with ⟨fits, popped⟩
      exact popped.handle fits
  | retry message => exact honest.retry enabled
  | _ => exact honest.of_quiet (quiet terms enabled id)

theorem of_reached {Allowed : Services → ServicesStep → Prop}
    (reached : (services terms).Reached Allowed state) : Honest state :=
  reached.invariant Honest (fun _ first => by cases first; exact initial)
    fun _ _ honest _ enabled => honest.step enabled

end Honest

/-! ## What notifications records -/

/-- Everything published has been recorded or waits to be, in its order. -/
structure Recording (state : Services) : Prop where
  complete : state.recorded ++ (state.queues .notifications).map Carried.post = state.published
  filed : state.timeline =
    Filing.fileAll ∅ (state.recorded.map fun post => (post.correlation, post.event.type))

namespace Recording

private theorem initial : Recording .initial := ⟨rfl, rfl⟩

private theorem of_same (recording : Recording state) (published : next.published = state.published)
    (queue : next.queues .notifications = state.queues .notifications)
    (recorded : next.recorded = state.recorded) (timeline : next.timeline = state.timeline) :
    Recording next where
  complete := by
    rw [published, queue, recorded]
    exact recording.complete
  filed := by
    rw [recorded, timeline]
    exact recording.filed

private theorem post (recording : Recording state) (post : Post) : Recording (state.post post) where
  complete := by
    have bound := (Event.routed_topology post.event .notifications).mpr trivial
    simp only [Services.post, route, bound, if_true, List.map_append, ← List.append_assoc,
      recording.complete, List.map_cons, List.map_nil]
  filed := recording.filed

private theorem record (recording : Recording state) {rest : List Carried}
    (waiting : state.queues .notifications = message :: rest) :
    Recording (handle { state with
      queues := Function.update state.queues .notifications rest } message .notifications) where
  complete := by
    have complete := recording.complete
    rw [waiting, List.map_cons] at complete
    simpa [handle] using complete
  filed := by
    simp only [handle]
    rw [List.map_append, List.map_cons, List.map_nil, Filing.fileAll_concat, ← recording.filed]

private theorem step {step : ServicesStep} (recording : Recording state)
    (enabled : state.Enabled step) :
    Recording (state.perform terms step) := by
  cases step with
  | relay order => exact recording.post _
  | publish service =>
      rcases Option.isSome_iff_exists.mp enabled with ⟨post, outgoing⟩
      simp only [perform, outgoing]
      have marked : Recording (state.markOut service) :=
        recording.of_same (by simp) (by simp) (by simp) (by simp)
      exact marked.post post
  | take queue =>
      rcases List.exists_cons_of_ne_nil enabled.2 with ⟨message, rest, waiting⟩
      simp only [perform, waiting]
      by_cases mine : queue = .notifications
      · subst mine
        exact recording.record waiting
      · have alone := handle_recorded { state with
          queues := Function.update state.queues queue rest } message queue mine
        have elsewhere : Queue.notifications ≠ queue := fun same => mine same.symm
        exact recording.of_same (handle_published ..)
          (by rw [handle_queues]; exact Function.update_of_ne elsewhere ..) alone.1 alone.2
  | retry message =>
      have elsewhere : Queue.notifications ≠ .inventory := by decide
      exact recording.of_same rfl
        (Function.update_of_ne elsewhere (state.queues .inventory ++ [message]) state.queues)
        rfl rfl
  | _ =>
      have still := quiet terms enabled id
      exact recording.of_same still.published (by rw [still.queues]) still.recorded
        still.timeline

theorem of_reached {Allowed : Services → ServicesStep → Prop}
    (reached : (services terms).Reached Allowed state) : Recording state :=
  reached.invariant Recording (fun _ first => by cases first; exact initial)
    fun _ _ recording _ enabled => recording.step enabled

end Recording

end Services

end AmqpApps.Fulfilment
