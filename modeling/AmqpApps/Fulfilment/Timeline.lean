import AmqpApps.Fulfilment.Progress
import AmqpApps.Fulfilment.Stories

/-! # The timeline of an order

Notifications sees the events in the order in which they were published. That the events
of an order are published in the order of a story is for the other queues to ensure.
-/

namespace AmqpApps.Fulfilment

/-- No duplicate of an order comes when its confirmation is past its retention. -/
def WithinRetention (terms : Lease.Terms Nat) (state : Services) : ServicesStep → Prop
  | .claim =>
      ∀ paying ∈ state.paying, ∀ mark ∈ state.charged paying.order.orderId,
        Remembered (· < ·) terms state.clock mark
  | _ => True

instance (terms : Lease.Terms Nat) (state : Services) (step : ServicesStep) :
    Decidable (WithinRetention terms state step) := by
  rcases step with ⟨⟩ <;> unfold WithinRetention <;> infer_instance

theorem typesOf_part {posts more : List Post} (part : posts <+: more) (orderId : String) :
    typesOf posts orderId <+: typesOf more orderId :=
  (part.filter _).map _

namespace Services

variable {terms : Lease.Terms Nat} {state next : Services} {message : Carried}
variable {orderId : String}

/-! ## One outcome of payments -/

def paid (state : Services) (orderId : String) : Nat :=
  state.times "PaymentCaptured" orderId + state.times "PaymentDeclined" orderId

theorem paid_post {post : Post}
    (type : post.event.type ∉ ["PaymentCaptured", "PaymentDeclined"]) :
    (state.post post).paid orderId = state.paid orderId := by
  simp only [List.mem_cons, List.not_mem_nil, or_false, not_or] at type
  rw [paid, times_post, times_post]
  simp only [Event.counts, type, and_false, if_false, add_zero, paid]

theorem paid_charge {order : OrderPlaced} {post : Post}
    (event : post.event = (charge order).event) :
    (state.post post).paid orderId =
      state.paid orderId + if order.orderId = orderId then 1 else 0 := by
  have about : post.event.orderId = order.orderId := by
    rw [event, PaymentOutcome.orderId_event, charge_orderId]
  have kind : post.event.type = "PaymentCaptured" ∨ post.event.type = "PaymentDeclined" := by
    rw [event]
    exact (charge order).type_event
  rw [paid, times_post, times_post, Event.counts, Event.counts, about, paid]
  rcases kind with kind | kind <;>
    simp only [kind, String.reduceEq, and_true, and_false, if_false] <;> omega

/-- What is published is published by a handler that held the claim, or has since
confirmed. -/
structure ChargedOnce (state : Services) : Prop where
  once : ∀ orderId, state.paid orderId ≤ 1
  unpaid : ∀ paying, state.paying = some paying → paying.await = .publish false →
    state.paid paying.order.orderId = 0
  settled : ∀ orderId, 0 < state.paid orderId →
    (∃ paying, state.paying = some paying ∧ paying.order.orderId = orderId ∧
      paying.await.isOut = true) ∨
    ∃ since, state.charged orderId = some (.confirmed since)

namespace ChargedOnce

private theorem initial : ChargedOnce .initial where
  once orderId := by simp [paid, times, typesOf, Services.initial]
  unpaid paying held := by cases held
  settled orderId published := by simp [paid, times, typesOf, Services.initial] at published

private theorem of_same (charged : ChargedOnce state)
    (paid : ∀ orderId, next.paid orderId = state.paid orderId)
    (paying : next.paying = state.paying) (store : next.charged = state.charged) :
    ChargedOnce next where
  once orderId := by
    rw [paid]
    exact charged.once orderId
  unpaid handler held out := by
    rw [paid]
    rw [paying] at held
    exact charged.unpaid handler held out
  settled orderId published := by
    rw [paid] at published
    rw [paying, store]
    exact charged.settled orderId published

private theorem confirmed (charged : ChargedOnce state)
    (quiet : ∀ paying, state.paying = some paying → paying.await.isOut = false)
    (published : 0 < state.paid orderId) :
    ∃ since, state.charged orderId = some (.confirmed since) := by
  rcases charged.settled orderId published with ⟨paying, held, -, out⟩ | confirmed
  · rw [quiet paying held] at out
    cases out
  · exact confirmed

private theorem claim (charged : ChargedOnce state) (retained : WithinRetention terms state .claim)
    (enabled : state.Enabled .claim) : ChargedOnce (state.perform terms .claim) := by
  rcases Option.map_eq_some_iff.mp enabled with ⟨paying, held, waits⟩
  have quiet : ∀ other, state.paying = some other → other.await.isOut = false := by
    intro other same
    rw [held] at same
    cases same
    rw [waits]
    rfl
  simp only [perform, held]
  by_cases taken : Lease.Taken terms state.charged state.clock paying.order.orderId
  · rw [Lease.firstTime_of_taken taken]
    exact {
      once := charged.once
      unpaid := fun other holding => by cases holding
      settled := fun orderId published => .inr (charged.confirmed quiet published) }
  · have unpaid : state.paid paying.order.orderId = 0 := by
      by_contra published
      rcases charged.confirmed quiet (Nat.pos_of_ne_zero published) with ⟨since, confirmed⟩
      exact taken ⟨_, confirmed, retained paying held _ confirmed⟩
    rw [Lease.firstTime_of_free taken]
    exact {
      once := charged.once
      unpaid := by
        intro other holding _
        cases holding
        exact unpaid
      settled := by
        intro orderId published
        have other : orderId ≠ paying.order.orderId := by
          rintro rfl
          exact absurd unpaid (Nat.pos_iff_ne_zero.mp published)
        rcases charged.confirmed quiet published with ⟨since, confirmed⟩
        exact .inr ⟨since, (Function.update_of_ne other _ _).trans confirmed⟩ }

private theorem charge (charged : ChargedOnce state) {post : Post}
    (outgoing : state.outgoing .payments = some post) :
    ChargedOnce ((state.markOut .payments).post post) := by
  rcases outgoing_payments outgoing with ⟨order, held, event⟩
  have unpaid : state.paid order.orderId = 0 := charged.unpaid _ held rfl
  have quiet : ∀ other, state.paying = some other → other.await.isOut = false := by
    intro other same
    rw [held] at same
    cases same
    rfl
  have counted : ∀ orderId, ((state.markOut .payments).post post).paid orderId =
      state.paid orderId + if order.orderId = orderId then 1 else 0 := by
    intro orderId
    rw [paid_charge event]
    rfl
  have now : ((state.markOut .payments).post post).paying =
      some ⟨order, post.correlation, .publish true⟩ := by
    simp [Services.post, markOut, held]
  constructor
  · intro orderId
    rw [counted]
    split
    · rename_i same
      rw [← same, unpaid]
    · exact charged.once orderId
  · intro paying holding awaits
    rw [now] at holding
    cases holding
    cases awaits
  · intro orderId published
    rw [counted] at published
    by_cases same : order.orderId = orderId
    · exact .inl ⟨_, now, same, rfl⟩
    · rw [if_neg same] at published
      exact .inr (charged.confirmed quiet published)

private theorem publish (charged : ChargedOnce state) {service : Queue} {post : Post}
    (outgoing : state.outgoing service = some post) :
    ChargedOnce ((state.markOut service).post post) := by
  cases service with
  | payments => exact charged.charge outgoing
  | inventory =>
      rcases outgoing_inventory outgoing with ⟨outcome, -, event⟩
      apply charged.of_same
      · intro orderId
        rw [paid_post]
        · rfl
        · rw [event]
          rcases outcome.type_event with kind | kind <;> simp [kind]
      · rfl
      · rfl
  | shipping =>
      rcases outgoing_shipping outgoing with ⟨shipment, -, event⟩
      apply charged.of_same
      · intro orderId
        rw [paid_post]
        · rfl
        · rw [event]
          simp [Event.type]
      · rfl
      · rfl
  | notifications => cases outgoing

private theorem take (charged : ChargedOnce state) {queue : Queue} {rest : List Carried}
    (fits : state.Fits queue message) (idle : state.busy queue = false) :
    ChargedOnce
      (handle { state with queues := Function.update state.queues queue rest } message queue) := by
  by_cases mine : queue = .payments
  · subst mine
    rcases Event.placed_of_routed fits.2 with ⟨order, event⟩
    rw [handle_placed event]
    have free : state.paying = none := by simpa [busy] using idle
    exact {
      once := charged.once
      unpaid := by
        intro paying holding awaits
        cases holding
        cases awaits
      settled := by
        intro orderId published
        have quiet : ∀ paying, state.paying = some paying → paying.await.isOut = false := by
          simp [free]
        exact .inr (charged.confirmed quiet published) }
  · apply charged.of_same
    · intro orderId
      simp only [paid, times, handle_published]
    · exact handle_paying _ _ _ mine
    · exact handle_charged ..

private theorem confirm (charged : ChargedOnce state) (enabled : state.Enabled .confirm) :
    ChargedOnce (state.perform terms .confirm) := by
  rcases Option.map_eq_some_iff.mp enabled with ⟨paying, held, waits⟩
  simp only [perform, held]
  exact {
    once := charged.once
    unpaid := fun other holding => by cases holding
    settled := by
      intro orderId published
      right
      by_cases same : orderId = paying.order.orderId
      · subst same
        exact ⟨_, Function.update_self ..⟩
      · rcases charged.settled orderId published with
          ⟨other, holding, about, -⟩ | ⟨since, before⟩
        · rw [held] at holding
          cases holding
          exact absurd about.symm same
        · exact ⟨since, (Function.update_of_ne same _ _).trans before⟩ }

private theorem sent (charged : ChargedOnce state) (enabled : state.Enabled (.sent .payments)) :
    ChargedOnce (state.perform terms (.sent .payments)) := by
  have awaits : state.awaits = some (.publish true) := by simpa [Enabled, isOut] using enabled
  rcases Option.map_eq_some_iff.mp awaits with ⟨paying, held, waits⟩
  simp only [perform, held]
  exact {
    once := charged.once
    unpaid := by
      intro other holding confirms
      cases holding
      cases confirms
    settled := by
      intro orderId published
      rcases charged.settled orderId published with ⟨other, holding, about, -⟩ | confirmed
      · rw [held] at holding
        cases holding
        exact .inl ⟨_, rfl, about, rfl⟩
      · exact .inr confirmed }

private theorem step {step : ServicesStep} (charged : ChargedOnce state) (honest : Honest state)
    (retained : WithinRetention terms state step) (enabled : state.Enabled step) :
    ChargedOnce (state.perform terms step) := by
  cases step with
  | place order => exact charged.of_same (fun _ => rfl) rfl rfl
  | withStock sku quantity => exact charged.of_same (fun _ => rfl) rfl rfl
  | withFlakyWarehouse count => exact charged.of_same (fun _ => rfl) rfl rfl
  | pass duration => exact charged.of_same (fun _ => rfl) rfl rfl
  | retry message => exact charged.of_same (fun _ => rfl) rfl rfl
  | relay order => exact charged.of_same (fun _ => paid_post (by simp [Event.type])) rfl rfl
  | publish service =>
      rcases Option.isSome_iff_exists.mp enabled with ⟨post, outgoing⟩
      simp only [perform, outgoing]
      exact charged.publish outgoing
  | take queue =>
      rcases List.exists_cons_of_ne_nil enabled.2 with ⟨message, rest, waiting⟩
      simp only [perform, waiting]
      exact charged.take (honest.pop waiting).1 enabled.1
  | claim => exact charged.claim retained enabled
  | confirm => exact charged.confirm enabled
  | sent service =>
      cases service with
      | payments => exact charged.sent enabled
      | inventory =>
          simp only [perform]
          split <;> exact charged.of_same (fun _ => rfl) rfl rfl
      | shipping => exact charged.of_same (fun _ => rfl) rfl rfl
      | notifications => exact charged

theorem of_reached (reached : (services terms).Reached (WithinRetention terms) state) :
    ChargedOnce state :=
  reached.invariant_using Honest ChargedOnce (fun _ => Honest.of_reached)
    (fun _ first => by cases first; exact initial)
    fun _ _ honest charged retained enabled => charged.step honest retained enabled

end ChargedOnce

/-! ## The story of an order -/

def ToldInOrder (state : Services) : Prop :=
  ∀ orderId, Tells (typesOf state.published orderId)

namespace ToldInOrder

private theorem post (told : ToldInOrder state) {post : Post}
    (next : Tells (typesOf state.published post.event.orderId ++ [post.event.type])) :
    ToldInOrder (state.post post) := by
  intro orderId
  rw [Services.post, typesOf_concat]
  split
  · rename_i same
    rw [← same]
    exact next
  · rw [List.append_nil]
    exact told orderId

private theorem of_same (told : ToldInOrder state) (published : next.published = state.published) :
    ToldInOrder next := by
  intro orderId
  rw [published]
  exact told orderId

private theorem charge (told : ToldInOrder state) (honest : Honest state)
    (charged : ChargedOnce state)
    {post : Post} (outgoing : state.outgoing .payments = some post) :
    Tells (typesOf state.published post.event.orderId ++ [post.event.type]) := by
  rcases outgoing_payments outgoing with ⟨order, held, event⟩
  have about : post.event.orderId = order.orderId := by
    rw [event, PaymentOutcome.orderId_event, charge_orderId]
  have placed : typesOf state.published order.orderId ≠ [] := by
    have published := honest.paying _ held
    have listed : "OrderPlaced" ∈ typesOf state.published order.orderId :=
      List.mem_map.mpr ⟨_, List.mem_filter.mpr ⟨published, decide_eq_true rfl⟩, rfl⟩
    exact List.ne_nil_of_mem listed
  have unpaid : state.times "PaymentCaptured" order.orderId +
      state.times "PaymentDeclined" order.orderId = 0 := charged.unpaid _ held rfl
  have uncaptured := List.count_eq_zero.mp (Nat.eq_zero_of_add_eq_zero_right unpaid)
  have undeclined := List.count_eq_zero.mp (Nat.eq_zero_of_add_eq_zero_left unpaid)
  have either := (told order.orderId).charged placed uncaptured undeclined
  rw [about, event]
  rcases (Fulfilment.charge order).type_event with kind | kind
  · rw [kind]
    exact either.1
  · rw [kind]
    exact either.2

private theorem decision (told : ToldInOrder state) (charged : ChargedOnce state)
    (balanced : ∀ orderId, Balanced orderId state) {post : Post}
    (outgoing : state.outgoing .inventory = some post) :
    Tells (typesOf state.published post.event.orderId ++ [post.event.type]) := by
  rcases outgoing_inventory outgoing with ⟨outcome, -, event⟩
  have waits : state.pending .inventory post.event.orderId = 1 := by
    rw [pending_of_outgoing outgoing, if_pos rfl]
  have once := charged.once post.event.orderId
  have decided := (balanced post.event.orderId).decided
  rw [paid] at once
  rw [undecided, waits] at decided
  have captured : 0 < state.times "PaymentCaptured" post.event.orderId := by omega
  have unreserved : state.times "StockReserved" post.event.orderId = 0 := by omega
  have available : state.times "StockUnavailable" post.event.orderId = 0 := by omega
  have either := (told post.event.orderId).decided (List.count_pos_iff.mp captured)
    (List.count_eq_zero.mp unreserved) (List.count_eq_zero.mp available)
  have kind : post.event.type = "StockReserved" ∨ post.event.type = "StockUnavailable" := by
    rw [event]
    exact outcome.type_event
  rcases kind with kind | kind
  · rw [kind]
    exact either.1
  · rw [kind]
    exact either.2

private theorem shipment (told : ToldInOrder state) (charged : ChargedOnce state)
    (balanced : ∀ orderId, Balanced orderId state) {post : Post}
    (outgoing : state.outgoing .shipping = some post) :
    Tells (typesOf state.published post.event.orderId ++ [post.event.type]) := by
  rcases outgoing_shipping outgoing with ⟨shipment, -, event⟩
  have waits : state.pending .shipping post.event.orderId = 1 := by
    rw [pending_of_outgoing outgoing, if_pos rfl]
  have once := charged.once post.event.orderId
  have decided := (balanced post.event.orderId).decided
  have shipped := (balanced post.event.orderId).shipped
  rw [paid] at once
  rw [unshipped, waits] at shipped
  have reserved : 0 < state.times "StockReserved" post.event.orderId := by omega
  have unshipped : state.times "OrderShipped" post.event.orderId = 0 := by omega
  have kind : post.event.type = "OrderShipped" := by
    rw [event]
    rfl
  rw [kind]
  exact (told post.event.orderId).shipped (List.count_pos_iff.mp reserved)
    (List.count_eq_zero.mp unshipped)

private theorem step {step : ServicesStep} (told : ToldInOrder state) (honest : Honest state)
    (charged : ChargedOnce state) (balanced : ∀ orderId, Balanced orderId state)
    (enabled : state.Enabled step) : ToldInOrder (state.perform terms step) := by
  cases step with
  | relay order => exact told.post (told _).placed
  | publish service =>
      rcases Option.isSome_iff_exists.mp enabled with ⟨post, outgoing⟩
      have next : Tells (typesOf state.published post.event.orderId ++ [post.event.type]) := by
        cases service with
        | payments => exact told.charge honest charged outgoing
        | inventory => exact told.decision charged balanced outgoing
        | shipping => exact told.shipment charged balanced outgoing
        | notifications => cases outgoing
      have marked : ToldInOrder (state.markOut service) := told.of_same (markOut_published ..)
      simp only [perform, outgoing]
      apply marked.post
      rw [markOut_published]
      exact next
  | take queue =>
      rcases List.exists_cons_of_ne_nil enabled.2 with ⟨message, rest, waiting⟩
      simp only [perform, waiting]
      exact told.of_same (handle_published ..)
  | retry message => exact told.of_same rfl
  | _ => exact told.of_same (quiet terms enabled id).published

theorem of_reached (reached : (services terms).Reached (WithinRetention terms) state) :
    ToldInOrder state := by
  apply reached.invariant_using
    (fun state => Honest state ∧ ChargedOnce state ∧ ∀ orderId, Balanced orderId state)
  · intro state reached
    exact ⟨.of_reached reached, .of_reached reached, fun orderId => .of_reached orderId reached⟩
  · rintro _ rfl orderId
    exact .nil
  · rintro state step ⟨honest, charged, balanced⟩ told _ enabled
    exact told.step honest charged balanced enabled

end ToldInOrder

/-! ## What a customer is shown -/

/-- The timeline of an order holds the order's own events, and what is recorded so far. -/
theorem timelineOf_eq (honest : Honest state) (recording : Recording state) (orderId : String) :
    state.timelineOf orderId = typesOf state.recorded orderId := by
  have forward : ∀ post ∈ state.recorded, post.correlation = post.event.orderId := by
    intro post recorded
    apply honest.published
    rw [← recording.complete]
    exact List.mem_append_left _ recorded
  rw [timelineOf, recording.filed, Filing.of_fileAll, List.filter_map, List.map_map, typesOf]
  have same : state.recorded.filter (fun post => post.correlation = orderId) =
      state.recorded.filter (fun post => post.event.orderId = orderId) :=
    List.filter_congr fun post recorded => by rw [forward post recorded]
  exact congrArg (List.map fun post => post.event.type) same

end Services

/-- Of every order, the timeline tells one of the three stories as far as it has come:
paid for, reserved and shipped; declined; or paid for and not in stock. -/
theorem timeline_tells_story {terms : Lease.Terms Nat} {state : Services}
    (reached : (services terms).Reached (WithinRetention terms) state) (orderId : String) :
    state.timelineOf orderId = typesOf state.recorded orderId ∧
      (state.timelineOf orderId ≠ [] →
        (state.timelineOf orderId).head? = some "OrderPlaced") ∧
      ∃ story ∈ stories, withoutRepeats (state.timelineOf orderId) <+: story := by
  have recording : state.Recording := .of_reached reached
  have same := Services.timelineOf_eq (.of_reached reached) recording orderId
  have part : typesOf state.recorded orderId <+: typesOf state.published orderId :=
    typesOf_part ⟨_, recording.complete⟩ orderId
  have told : Services.ToldInOrder state := .of_reached reached
  rw [same]
  exact ⟨rfl, (told orderId).of_part part⟩

def handling (queue : Queue) : List ServicesStep := [.take queue, .publish queue, .sent queue]

/-- The order is relayed twice, and the warehouse does not respond at first. -/
theorem duplicate_tells_story : ∃ state : Services,
    state.timelineOf "order-1" =
      ["OrderPlaced", "OrderPlaced", "PaymentCaptured", "StockReserved", "OrderShipped"] ∧
      ∃ story ∈ stories, withoutRepeats (state.timelineOf "order-1") <+: story := by
  have reached := TransitionSystem.Reached.of_isSome_run (services chargedTerms)
    (WithinRetention chargedTerms) (.start rfl)
    ([.withStock "WIDGET" 5, .withFlakyWarehouse 1, .place widget.order, .relay widget.order,
        .relay widget.order, .take .payments, .claim, .publish .payments, .sent .payments,
        .confirm, .take .inventory, .take .payments, .claim,
        .retry ⟨⟨.captured ⟨"order-1", "ada", "WIDGET", 1, 25⟩, "order-1"⟩, 2⟩] ++
      handling .inventory ++ handling .shipping ++
      List.replicate 5 (.take .notifications))
    (by decide +kernel)
  exact ⟨_, by decide +kernel, (timeline_tells_story reached "order-1").2.2⟩

end AmqpApps.Fulfilment
